import Mathlib.Data.List.Nodup
import OnestiLock.Errors

/-! `_migrate_to_entry_id_keys` (`__init__.py`): registry keys move from the
lock's IEEE address to the id of its config entry. The two registries are Home
Assistant's, and nothing is assumed of them but what is stated here. -/

namespace OnestiLock

def registryDomain : String := "onesti_lock"

inductive RegistryError
  | indexError | keyError | valueError | identifierCollision
  deriving DecidableEq, Repr

/-- A tuple that names a device: the domain of an integration, and what it adds. -/
structure Identifier where
  domain : String
  rest : List String
  deriving DecidableEq, Repr

structure DeviceEntry where
  id : String
  identifiers : List Identifier
  configEntries : List String
  deriving DecidableEq, Repr

structure RegistryEntry where
  entityId : String
  domain : String
  platform : String
  uniqueId : String
  configEntryId : Option String
  deviceId : Option String
  name : Option String
  deriving DecidableEq, Repr

def RegistryEntry.key (e : RegistryEntry) : String × String × String := (e.domain, e.platform, e.uniqueId)

def RegistryEntry.rekey (e : RegistryEntry) (uniqueId : String) : RegistryEntry := { e with uniqueId := uniqueId }

/-- An entry id is a ULID or hexadecimal, an address hexadecimal with colons. -/
structure LockEntry where
  entryId : String
  ieee : String
  entryId_plain : '-' ∉ entryId.toList
  ieee_plain : '-' ∉ ieee.toList

/-- Python's `str.lower`, one character at a time. -/
structure StrLower where
  char : Char → List Char
  dash : char '-' = ['-']
  dash_only : ∀ c, '-' ∈ char c → c = '-'

def StrLower.lower (l : StrLower) (s : String) : List Char := s.toList.flatMap l.char

/-- The two registries, and the calls the migration makes of them. -/
structure Registries (σ : Type) where
  devices : σ → List DeviceEntry
  entities : σ → List RegistryEntry
  /-- `async_update_device` with `remove_config_entry_id`. -/
  removeConfigEntry : σ → String → String → Except RegistryError σ
  /-- `async_update_device` with `new_identifiers`. -/
  newIdentifiers : σ → String → List Identifier → Except RegistryError (σ × DeviceEntry)
  getEntityId : σ → String → String → String → Option String
  remove : σ → String → Except RegistryError σ
  /-- `async_update_entity` with `new_unique_id`. -/
  newUniqueId : σ → String → String → Except RegistryError σ

namespace LockEntry

variable (l : StrLower) (entry : LockEntry)

def ownKey : Identifier := ⟨registryDomain, [entry.entryId]⟩

def isStale (identifier : Identifier) : Except RegistryError Bool :=
  if identifier.domain = registryDomain then
    match identifier.rest with
    | key :: _ => .ok (l.lower key == l.lower entry.ieee)
    | [] => .error .indexError
  else .ok false

def stale : List Identifier → Except RegistryError (List Identifier)
  | [] => .ok []
  | identifier :: rest => do
    let matched ← entry.isStale l identifier
    let others ← stale rest
    return if matched then identifier :: others else others

def idPrefix : List Char := l.lower entry.ieee ++ ['-']

def hasPrefix (uniqueId : String) : Bool := (entry.idPrefix l).isPrefixOf (l.lower uniqueId)

def suffix (uniqueId : String) : String := String.ofList (uniqueId.toList.drop (entry.idPrefix l).length)

def newId (uniqueId : String) : String := entry.entryId ++ "-" ++ entry.suffix l uniqueId

end LockEntry

section

variable {σ : Type} (r : Registries σ) (l : StrLower) (entry : LockEntry)

def entriesForConfigEntry (s : σ) : List DeviceEntry :=
  (r.devices s).filter (fun d => entry.entryId ∈ d.configEntries)

def rowsForConfigEntry (s : σ) : List RegistryEntry :=
  (r.entities s).filter (fun e => e.configEntryId = some entry.entryId)

def newIdentifiers (device : DeviceEntry) (stale : List Identifier) : List Identifier :=
  device.identifiers.filter (fun i => i ∉ stale) ++ [entry.ownKey]

/-- The first loop, over the entry's devices as they were listed. -/
def migrateDevices : σ → Option DeviceEntry → List DeviceEntry → Except RegistryError σ
  | s, _, [] => .ok s
  | s, owner, device :: rest => do
    let stale : List Identifier ← entry.stale l device.identifiers
    if stale.isEmpty then migrateDevices s owner rest
    else match owner with
    | some o =>
      if o.id ≠ device.id then
        let released ← r.removeConfigEntry s device.id entry.entryId
        migrateDevices released owner rest
      else
        let updated ← r.newIdentifiers s device.id (newIdentifiers entry device stale)
        migrateDevices updated.1 owner rest
    | none =>
      let updated ← r.newIdentifiers s device.id (newIdentifiers entry device stale)
      migrateDevices updated.1 (some updated.2) rest

/-- The second loop, over the entry's entities as they were listed. -/
def migrateEntities : σ → List RegistryEntry → Except RegistryError σ
  | s, [] => .ok s
  | s, row :: rest =>
    if entry.hasPrefix l row.uniqueId = false then migrateEntities s rest
    else
      let uniqueId := entry.newId l row.uniqueId
      if (r.getEntityId s row.domain row.platform uniqueId).isSome then do
        let s ← r.remove s row.entityId
        migrateEntities s rest
      else do
        let s ← r.newUniqueId s row.entityId uniqueId
        migrateEntities s rest

def migrateToEntryIdKeys (s : σ) : Except RegistryError σ := do
  let devices := entriesForConfigEntry r entry s
  let owner := devices.find? (fun d => entry.ownKey ∈ d.identifiers)
  let s ← migrateDevices r l entry s owner devices
  migrateEntities r l entry s (rowsForConfigEntry r entry s)

end

/-! What Home Assistant documents of its registries. -/

namespace Registries

variable {σ : Type} (r : Registries σ)

/-- A device leaves a config entry, and is removed with its last one. Of the
entities some of those attached to it may go, or lose the device. -/
structure Released (id entryId : String) (s s' : σ) : Prop where
  others : ∀ d, d.id ≠ id → (d ∈ r.devices s' ↔ d ∈ r.devices s)
  left : ∀ d ∈ r.devices s, d.id = id → (∃ c ∈ d.configEntries, c ≠ entryId) →
    { d with configEntries := d.configEntries.filter (· ≠ entryId) } ∈ r.devices s'
  only : ∀ d' ∈ r.devices s', d'.id = id → ∃ d ∈ r.devices s, d.id = id ∧
    d' = { d with configEntries := d.configEntries.filter (· ≠ entryId) }
  kept : ∀ e ∈ r.entities s, e.deviceId ≠ some id → e ∈ r.entities s'
  rows : ∀ e' ∈ r.entities s', ∃ e ∈ r.entities s, e' = e ∨
    e.deviceId = some id ∧ e' = { e with deviceId := none }

structure Reidentified (d : DeviceEntry) (identifiers : List Identifier) (s s' : σ) : Prop where
  devices : ∀ d', d' ∈ r.devices s' ↔
    d' ∈ r.devices s ∧ d'.id ≠ d.id ∨ d' = { d with identifiers := identifiers }
  entities : r.entities s' = r.entities s

structure Removed (entityId : String) (s s' : σ) : Prop where
  devices : r.devices s' = r.devices s
  entities : ∀ e, e ∈ r.entities s' ↔ e ∈ r.entities s ∧ e.entityId ≠ entityId

structure Rekeyed (row : RegistryEntry) (uniqueId : String) (s s' : σ) : Prop where
  devices : r.devices s' = r.devices s
  entities : ∀ e, e ∈ r.entities s' ↔
    e ∈ r.entities s ∧ e.entityId ≠ row.entityId ∨ e = row.rekey uniqueId

/-- Devices are stored under their id and entities under their entity id. A
call on a row that is there succeeds, unless what it adds is taken. -/
structure Documented : Prop where
  device_ids : ∀ s, ((r.devices s).map DeviceEntry.id).Nodup
  entity_ids : ∀ s, ((r.entities s).map RegistryEntry.entityId).Nodup
  removeConfigEntry : ∀ s d entryId, d ∈ r.devices s →
    ∃ s', r.removeConfigEntry s d.id entryId = .ok s' ∧ r.Released d.id entryId s s'
  newIdentifiers : ∀ s d identifiers, d ∈ r.devices s →
    (∀ d' ∈ r.devices s, d'.id ≠ d.id → ∀ i ∈ identifiers, i ∈ d'.identifiers → i ∈ d.identifiers) →
    ∃ s', r.newIdentifiers s d.id identifiers = .ok (s', { d with identifiers := identifiers }) ∧
      r.Reidentified d identifiers s s'
  getEntityId : ∀ s domain platform uniqueId, (r.getEntityId s domain platform uniqueId).isSome = true ↔
    ∃ e ∈ r.entities s, e.key = (domain, platform, uniqueId)
  remove : ∀ s e, e ∈ r.entities s → ∃ s', r.remove s e.entityId = .ok s' ∧ r.Removed e.entityId s s'
  newUniqueId : ∀ s e uniqueId, e ∈ r.entities s →
    (∀ e' ∈ r.entities s, e'.key ≠ (e.domain, e.platform, uniqueId)) →
    ∃ s', r.newUniqueId s e.entityId uniqueId = .ok s' ∧ r.Rekeyed e uniqueId s s'

end Registries

end OnestiLock
