import Mathlib.Data.List.Basic
import OnestiLock.Json
import OnestiLock.SlotStore
import OnestiLock.ZhaDevices

/-! `async_migrate_entry` (`__init__.py`): a stored entry of version 2.1 or 2.2
becomes one of 2.3, and what a coordinator reads of it stays as it was. -/

/-! Python's dicts with text keys, as far as looking up goes. -/

namespace Dict

variable {α β : Type}

/-- `{**d, **e}`. -/
def merge (d e : String → Option α) : String → Option α := fun key => (e key).or (d key)

/-- `{f: d[f] for f in fields if f in d}`. -/
def pick (fields : String → Option β) (d : String → Option α) : String → Option α :=
  fun key => if (fields key).isSome then d key else none

theorem pick_pick (fields : String → Option β) (d : String → Option α) :
    pick fields (pick fields d) = pick fields d := by
  funext key
  unfold pick
  split <;> rfl

theorem isSome_of_pick {fields : String → Option β} {d : String → Option α} {key : String}
    (h : (pick fields d key).isSome = true) : (fields key).isSome = true := by
  unfold pick at h
  split at h
  case isTrue hfield => exact hfield
  case isFalse => exact absurd h (by simp)

end Dict

namespace OnestiLock

open Python Json Dict

abbrev Record := String → Option Value

/-- A config entry as Home Assistant stores it, the slots apart from the other
options. -/
@[ext] structure StoredEntry where
  version : Int
  minorVersion : Int
  slots : Option (String → Option Record)
  rest : Record
  data : Record

def confIeee : String := "ieee"

def confModel : String := "model"

def defaultRecord : Record :=
  Function.update (Function.update (fun _ => none) "name" (some (.str []))) "has_pin" (some (.bool false))

/-- `OnestiCoordinator._load_slots`. -/
def loadRecords (entry : StoredEntry) : String → Option Record :=
  fun key => (entry.slots.getD (fun _ => none) key).map (fun slot =>
    merge defaultRecord (pick defaultRecord slot))

/-- `get_slot` of a coordinator over the entry. -/
def StoredEntry.getSlot (entry : StoredEntry) (slot : Int) : Record :=
  merge defaultRecord ((loadRecords entry (slotKey slot)).getD (fun _ => none))

/-- What stops a migration: the address is missing, or it is not a text. -/
inductive EntryFault
  | keyError | attributeError
  deriving DecidableEq, Repr

section

variable (lower : Text → Text) (gateway : Gateway)

def Value.ofModel : Option Text → Value
  | none => .null
  | some model => .str model

def modelInZha (ieee : Value) : Except EntryFault Value :=
  match iterDeviceProxies gateway, ieee with
  | [], _ => .ok (.str [])
  | devices, .str address =>
    match devices.find? (fun device => lower device.ieee == lower address) with
    | some device => .ok (Value.ofModel device.model)
    | none => .ok (.str [])
  | _, _ => .error .attributeError

/-- `entry.data.get(CONF_MODEL) or model_in_zha(hass, entry.data[CONF_IEEE])`. -/
def storedModel (data : Record) : Except EntryFault Value :=
  match (data confModel).filter Value.truthy with
  | some model => .ok model
  | none =>
    match data confIeee with
    | none => .error .keyError
    | some ieee => modelInZha lower gateway ieee

/-- The first update, of an entry below 2.2. -/
def dropSlotFields (entry : StoredEntry) : StoredEntry :=
  { entry with
    slots := some (fun key => (entry.slots.getD (fun _ => none) key).map (pick defaultRecord))
    version := 2
    minorVersion := 2 }

def withModel (entry : StoredEntry) (model : Value) : StoredEntry :=
  { entry with
    data := Function.update entry.data confModel (some model)
    version := 2
    minorVersion := 3 }

/-- The second update, of an entry below 2.3. -/
def addModel (entry : StoredEntry) : Except EntryFault StoredEntry := do
  let model ← storedModel lower gateway entry.data
  return withModel entry model

/-- The entry as each update of a run leaves it, and what the run answers. -/
structure Migration where
  updates : List StoredEntry
  answer : Except EntryFault Bool

def migrateToModel (entry : StoredEntry) : Migration :=
  if entry.minorVersion < 3 then
    match addModel lower gateway entry with
    | .ok updated => ⟨[updated], .ok true⟩
    | .error fault => ⟨[], .error fault⟩
  else ⟨[], .ok true⟩

def asyncMigrateEntry (entry : StoredEntry) : Migration :=
  if entry.version > 2 then ⟨[], .ok false⟩
  else if entry.minorVersion < 2 then
    let second := migrateToModel lower gateway (dropSlotFields entry)
    { second with updates := dropSlotFields entry :: second.updates }
  else migrateToModel lower gateway entry

def migrated (entry : StoredEntry) : StoredEntry :=
  (asyncMigrateEntry lower gateway entry).updates.getLastD entry

end

/-! What the updates leave alone. A field the first update drops is one the
loader drops as well, so the loaded slots are the same. -/

theorem loadRecords_dropSlotFields (entry : StoredEntry) :
    loadRecords (dropSlotFields entry) = loadRecords entry := by
  funext key
  simp only [loadRecords, dropSlotFields, Option.getD_some, Option.map_map]
  cases entry.slots.getD (fun _ => none) key with
  | none => rfl
  | some slot => simp only [Option.map_some, Function.comp, pick_pick]

theorem getSlot_congr {entry other : StoredEntry} (h : loadRecords entry = loadRecords other) :
    entry.getSlot = other.getSlot := by
  funext slot
  unfold StoredEntry.getSlot
  rw [h]

section

variable {lower : Text → Text} {gateway : Gateway}

theorem modelInZha_str (address : Text) :
    ∃ model, modelInZha lower gateway (.str address) = .ok model := by
  unfold modelInZha
  cases iterDeviceProxies gateway with
  | nil => exact ⟨_, rfl⟩
  | cons device devices =>
    simp only
    split
    · exact ⟨_, rfl⟩
    · exact ⟨_, rfl⟩

theorem storedModel_of_truthy {data : Record} {model : Value} (hmodel : data confModel = some model)
    (htruthy : model.truthy = true) : storedModel lower gateway data = .ok model := by
  have hkept : (data confModel).filter Value.truthy = some model := by
    rw [hmodel]
    exact Option.filter_some_pos htruthy
  unfold storedModel
  rw [hkept]

theorem storedModel_of_ieee (lower : Text → Text) (gateway : Gateway) {data : Record} {address : Text}
    (hieee : data confIeee = some (.str address)) :
    ∃ model, storedModel lower gateway data = .ok model := by
  unfold storedModel
  cases (data confModel).filter Value.truthy with
  | some model => exact ⟨model, rfl⟩
  | none =>
    rw [hieee]
    exact modelInZha_str address

theorem migrateToModel_of_model {entry : StoredEntry} {model : Value} (hminor : entry.minorVersion < 3)
    (hmodel : storedModel lower gateway entry.data = .ok model) :
    migrateToModel lower gateway entry = ⟨[withModel entry model], .ok true⟩ := by
  have hadd : addModel lower gateway entry = .ok (withModel entry model) := by
    unfold addModel
    rw [hmodel]
    rfl
  unfold migrateToModel
  rw [if_pos hminor, hadd]

theorem asyncMigrateEntry_of_one {entry : StoredEntry} {model : Value} (hversion : entry.version = 2)
    (hminor : entry.minorVersion = 1) (hmodel : storedModel lower gateway entry.data = .ok model) :
    asyncMigrateEntry lower gateway entry =
      ⟨[dropSlotFields entry, withModel (dropSlotFields entry) model], .ok true⟩ := by
  have hmigrate : migrateToModel lower gateway (dropSlotFields entry) =
      ⟨[withModel (dropSlotFields entry) model], .ok true⟩ :=
    migrateToModel_of_model (by decide : (2 : Int) < 3) hmodel
  unfold asyncMigrateEntry
  rw [if_neg (by omega), if_pos (by omega), hmigrate]

theorem asyncMigrateEntry_of_two {entry : StoredEntry} {model : Value} (hversion : entry.version = 2)
    (hminor : entry.minorVersion = 2) (hmodel : storedModel lower gateway entry.data = .ok model) :
    asyncMigrateEntry lower gateway entry = ⟨[withModel entry model], .ok true⟩ := by
  unfold asyncMigrateEntry
  rw [if_neg (by omega), if_neg (by omega), migrateToModel_of_model (by omega) hmodel]

theorem asyncMigrateEntry_of_three {entry : StoredEntry} (hversion : entry.version = 2)
    (hminor : entry.minorVersion = 3) : asyncMigrateEntry lower gateway entry = ⟨[], .ok true⟩ := by
  unfold asyncMigrateEntry migrateToModel
  rw [if_neg (by omega), if_neg (by omega), if_neg (by omega)]

theorem asyncMigrateEntry_of_newer {entry : StoredEntry} (hversion : 2 < entry.version) :
    asyncMigrateEntry lower gateway entry = ⟨[], .ok false⟩ := by
  unfold asyncMigrateEntry
  rw [if_pos hversion]

end

/-- What an entry of 2.1 or 2.2 means to the integration, its model apart. -/
structure Preserved (entry after : StoredEntry) : Prop where
  slots : after.getSlot = entry.getSlot
  rest : after.rest = entry.rest
  data : ∀ key, key ≠ confModel → after.data key = entry.data key

theorem Preserved.trans {a b c : StoredEntry} (h : Preserved a b) (h' : Preserved b c) : Preserved a c where
  slots := h'.slots.trans h.slots
  rest := h'.rest.trans h.rest
  data := fun key hkey => (h'.data key hkey).trans (h.data key hkey)

theorem preserved_dropSlotFields (entry : StoredEntry) : Preserved entry (dropSlotFields entry) where
  slots := getSlot_congr (loadRecords_dropSlotFields entry)
  rest := rfl
  data := fun _ _ => rfl

theorem preserved_withModel (entry : StoredEntry) (model : Value) :
    Preserved entry (withModel entry model) where
  slots := rfl
  rest := rfl
  data := fun _ hkey => Function.update_of_ne hkey _ _

/-- No field outside `DEFAULT_SLOT` is stored. -/
def OnlySlotFields (entry : StoredEntry) : Prop :=
  ∀ slots, entry.slots = some slots → ∀ key record, slots key = some record →
    ∀ field, (record field).isSome = true → (defaultRecord field).isSome = true

theorem onlySlotFields_dropSlotFields (entry : StoredEntry) : OnlySlotFields (dropSlotFields entry) := by
  intro slots hslots key record hrecord field hfield
  have hslot : (entry.slots.getD (fun _ => none) key).map (pick defaultRecord) = some record := by
    rw [← hrecord]
    exact congrFun (Option.some.inj hslots) key
  obtain ⟨stored, -, hpick⟩ := Option.map_eq_some_iff.mp hslot
  rw [← hpick] at hfield
  exact isSome_of_pick hfield

/-- `after` is what a migration of `entry` should leave. -/
structure Upgraded (entry after : StoredEntry) : Prop where
  version : after.version = 2
  minorVersion : after.minorVersion = 3
  preserved : Preserved entry after
  model : ∀ model, model ≠ [] → entry.data confModel = some (.str model) →
    after.data confModel = some (.str model)
  fields : entry.minorVersion = 1 → OnlySlotFields after

/-- The last update of a run, over an entry that means the same as the first. -/
theorem migrated_withModel {lower : Text → Text} {gateway : Gateway} {entry current : StoredEntry}
    {model : Value} (hpreserved : Preserved entry current)
    (hfields : entry.minorVersion = 1 → OnlySlotFields current)
    (hmodel : storedModel lower gateway entry.data = .ok model) :
    Upgraded entry (withModel current model) where
  version := rfl
  minorVersion := rfl
  preserved := hpreserved.trans (preserved_withModel current model)
  model := by
    intro kept hkept hentry
    have htruthy : (Value.str kept).truthy = true := by
      cases kept with
      | nil => exact absurd rfl hkept
      | cons c rest => rfl
    have heq : (Except.ok model : Except EntryFault Value) = .ok (.str kept) :=
      hmodel.symm.trans (storedModel_of_truthy hentry htruthy)
    rw [← Except.ok.inj heq]
    exact Function.update_self confModel (some model) current.data
  fields := hfields

/-- A run over an entry of 2.1 or 2.2 leaves one of 2.3 that means the same. A
second run changes nothing, and a run that finds only the first update made ends
as one that makes both. -/
theorem entry_migration (lower : Text → Text) (gateway : Gateway) :
    (∀ (entry : StoredEntry) (address : Text), entry.version = 2 →
      entry.minorVersion = 1 ∨ entry.minorVersion = 2 →
      entry.data confIeee = some (.str address) →
      (asyncMigrateEntry lower gateway entry).answer = .ok true ∧
      Upgraded entry (migrated lower gateway entry) ∧
      (∀ later, asyncMigrateEntry lower later (migrated lower gateway entry) = ⟨[], .ok true⟩) ∧
      ∀ stored ∈ (asyncMigrateEntry lower gateway entry).updates.dropLast, ∀ later,
        (asyncMigrateEntry lower later stored).answer = .ok true ∧
        migrated lower later stored = migrated lower later entry) ∧
    ∀ entry : StoredEntry, 2 < entry.version →
      asyncMigrateEntry lower gateway entry = ⟨[], .ok false⟩ ∧
      migrated lower gateway entry = entry := by
  constructor
  · intro entry address hversion hminor hieee
    obtain ⟨model, hmodel⟩ := storedModel_of_ieee lower gateway hieee
    cases hminor with
    | inl hone =>
      have hrun := asyncMigrateEntry_of_one hversion hone hmodel
      have hafter : migrated lower gateway entry = withModel (dropSlotFields entry) model := by
        unfold migrated
        rw [hrun]
        rfl
      rw [hafter, hrun]
      refine ⟨rfl, ?_, fun later => asyncMigrateEntry_of_three rfl rfl, ?_⟩
      · exact migrated_withModel (preserved_dropSlotFields entry)
          (fun _ => onlySlotFields_dropSlotFields entry) hmodel
      · intro stored hstored later
        have hfirst : stored = dropSlotFields entry := List.mem_singleton.mp hstored
        subst hfirst
        obtain ⟨found, hfound⟩ := storedModel_of_ieee lower later hieee
        have hresumed := @asyncMigrateEntry_of_two lower later (dropSlotFields entry) found rfl rfl hfound
        have hwhole := asyncMigrateEntry_of_one hversion hone hfound
        unfold migrated
        rw [hresumed, hwhole]
        exact ⟨rfl, rfl⟩
    | inr htwo =>
      have hrun := asyncMigrateEntry_of_two hversion htwo hmodel
      have hafter : migrated lower gateway entry = withModel entry model := by
        unfold migrated
        rw [hrun]
        rfl
      rw [hafter, hrun]
      refine ⟨rfl, ?_, fun later => asyncMigrateEntry_of_three rfl rfl, ?_⟩
      · exact migrated_withModel ⟨rfl, rfl, fun _ _ => rfl⟩ (fun hone => by omega) hmodel
      · intro stored hstored
        exact absurd hstored List.not_mem_nil
  · intro entry hnewer
    have hrun : asyncMigrateEntry lower gateway entry = ⟨[], .ok false⟩ :=
      asyncMigrateEntry_of_newer hnewer
    unfold migrated
    rw [hrun]
    exact ⟨rfl, rfl⟩

/-- An entry of 2.1, whose third slot says besides its name whether it is occupied. -/
def firstEntry : StoredEntry where
  version := 2
  minorVersion := 1
  slots := some (fun key => if key = "3" then some (fun field =>
    if field = "name" then some (.str (text "Kari"))
    else if field = "occupied" then some (.bool true) else none) else none)
  rest := fun _ => none
  data := fun key => if key = confIeee then some (.str (text "f4:ce")) else none

example : (asyncMigrateEntry id none firstEntry).updates.map (fun entry => entry.minorVersion) = [2, 3] := by
  decide +kernel

example : (migrated id none firstEntry).getSlot 3 "name" = some (.str (text "Kari")) ∧
    ((migrated id none firstEntry).slots.bind (fun slots => slots "3")).bind (fun slot => slot "occupied") = none :=
  ⟨rfl, rfl⟩

end OnestiLock
