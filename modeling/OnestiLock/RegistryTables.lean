import OnestiLock.RegistryEntities

/-! Registries kept as two tables, with the calls as Home Assistant's do them:
a device that leaves its last config entry is removed, and the entities it had
for that entry with it. -/

namespace OnestiLock

theorem map_filterMap_sublist {α β : Type*} {f : α → Option α} {g : α → β}
    (hf : ∀ a b, f a = some b → g b = g a) (xs : List α) : ((xs.filterMap f).map g).Sublist (xs.map g) := by
  induction xs with
  | nil => exact List.Sublist.refl _
  | cons x xs ih =>
    cases hx : f x with
    | none =>
      rw [List.filterMap_cons_none hx]
      exact ih.cons _
    | some y =>
      rw [List.filterMap_cons_some hx, List.map_cons, List.map_cons, hf x y hx]
      exact ih.cons_cons _

structure Tables where
  devices : List DeviceEntry
  entities : List RegistryEntry
  device_ids : (devices.map DeviceEntry.id).Nodup
  entity_ids : (entities.map RegistryEntry.entityId).Nodup

namespace Tables

/-- A device without one of its config entries, `none` without any. -/
def releaseDevice (id entryId : String) (d : DeviceEntry) : Option DeviceEntry :=
  if d.id = id then
    if d.configEntries.filter (· ≠ entryId) = [] then none
    else some { d with configEntries := d.configEntries.filter (· ≠ entryId) }
  else some d

/-- An entity of that device: of the entry it goes, of another it outlives the device. -/
def releaseEntity (id entryId : String) (removed : Bool) (e : RegistryEntry) : Option RegistryEntry :=
  if e.deviceId = some id then
    if e.configEntryId = some entryId then none
    else if removed then some { e with deviceId := none }
    else some e
  else some e

theorem releaseDevice_id {id entryId : String} {d d' : DeviceEntry} (h : releaseDevice id entryId d = some d') :
    d'.id = d.id := by
  unfold releaseDevice at h
  split_ifs at h <;> obtain rfl := Option.some.inj h <;> rfl

theorem releaseEntity_id {id entryId : String} {removed : Bool} {e e' : RegistryEntry}
    (h : releaseEntity id entryId removed e = some e') : e'.entityId = e.entityId := by
  unfold releaseEntity at h
  split_ifs at h <;> obtain rfl := Option.some.inj h <;> rfl

def removeConfigEntry (t : Tables) (id entryId : String) : Except RegistryError Tables :=
  if t.devices.any (·.id = id) then
    let devices := t.devices.filterMap (releaseDevice id entryId)
    let removed := !devices.any (·.id = id)
    .ok {
      devices := devices
      entities := t.entities.filterMap (releaseEntity id entryId removed)
      device_ids := t.device_ids.sublist (map_filterMap_sublist (fun _ _ => releaseDevice_id) _)
      entity_ids := t.entity_ids.sublist (map_filterMap_sublist (fun _ _ => releaseEntity_id) _) }
  else .error .keyError

def setIdentifiers (id : String) (identifiers : List Identifier) (d : DeviceEntry) : DeviceEntry :=
  if d.id = id then { d with identifiers := identifiers } else d

theorem setIdentifiers_ids (id : String) (identifiers : List Identifier) (devices : List DeviceEntry) :
    (devices.map (setIdentifiers id identifiers)).map DeviceEntry.id = devices.map DeviceEntry.id := by
  rw [List.map_map]
  refine List.map_congr_left fun d _ => ?_
  simp only [Function.comp_apply, setIdentifiers]
  split_ifs <;> rfl

def withIdentifiers (t : Tables) (id : String) (identifiers : List Identifier) : Tables :=
  { t with
    devices := t.devices.map (setIdentifiers id identifiers)
    device_ids := by
      rw [setIdentifiers_ids]
      exact t.device_ids }

def newIdentifiers (t : Tables) (id : String) (identifiers : List Identifier) :
    Except RegistryError (Tables × DeviceEntry) :=
  match t.devices.find? (·.id = id) with
  | none => .error .keyError
  | some d =>
    if t.devices.any (fun d' => d'.id ≠ id ∧ identifiers.any (fun i => i ∈ d'.identifiers ∧ i ∉ d.identifiers)) then
      .error .identifierCollision
    else .ok (t.withIdentifiers id identifiers, { d with identifiers := identifiers })

def getEntityId (t : Tables) (domain platform uniqueId : String) : Option String :=
  (t.entities.find? (fun e => e.key = (domain, platform, uniqueId))).map RegistryEntry.entityId

def without (t : Tables) (entityId : String) : Tables :=
  { t with
    entities := t.entities.filter (·.entityId ≠ entityId)
    entity_ids := t.entity_ids.sublist (List.filter_sublist.map _) }

def remove (t : Tables) (entityId : String) : Except RegistryError Tables :=
  if t.entities.any (·.entityId = entityId) then .ok (t.without entityId) else .error .keyError

def setUniqueId (entityId uniqueId : String) (e : RegistryEntry) : RegistryEntry :=
  if e.entityId = entityId then e.rekey uniqueId else e

theorem setUniqueId_ids (entityId uniqueId : String) (entities : List RegistryEntry) :
    (entities.map (setUniqueId entityId uniqueId)).map RegistryEntry.entityId =
      entities.map RegistryEntry.entityId := by
  rw [List.map_map]
  refine List.map_congr_left fun e _ => ?_
  simp only [Function.comp_apply, setUniqueId]
  split_ifs <;> rfl

def withUniqueId (t : Tables) (entityId uniqueId : String) : Tables :=
  { t with
    entities := t.entities.map (setUniqueId entityId uniqueId)
    entity_ids := by
      rw [setUniqueId_ids]
      exact t.entity_ids }

/-- Rewriting onto a key that is taken raises. -/
def newUniqueId (t : Tables) (entityId uniqueId : String) : Except RegistryError Tables :=
  match t.entities.find? (·.entityId = entityId) with
  | none => .error .keyError
  | some e =>
    if (t.getEntityId e.domain e.platform uniqueId).isSome then .error .valueError
    else .ok (t.withUniqueId entityId uniqueId)

end Tables

def tables : Registries Tables where
  devices := Tables.devices
  entities := Tables.entities
  removeConfigEntry := Tables.removeConfigEntry
  newIdentifiers := Tables.newIdentifiers
  getEntityId := Tables.getEntityId
  remove := Tables.remove
  newUniqueId := Tables.newUniqueId

namespace Tables

variable {t : Tables}

theorem find_device {d : DeviceEntry} (hd : d ∈ t.devices) : t.devices.find? (·.id = d.id) = some d := by
  cases hfind : t.devices.find? (·.id = d.id) with
  | none =>
    have hnone := List.find?_eq_none.mp hfind d hd
    simp at hnone
  | some d' =>
    have hid := List.find?_some hfind
    rw [List.inj_on_of_nodup_map t.device_ids (List.mem_of_find?_eq_some hfind) hd (by simpa using hid)]

theorem find_entity {e : RegistryEntry} (he : e ∈ t.entities) :
    t.entities.find? (·.entityId = e.entityId) = some e := by
  cases hfind : t.entities.find? (·.entityId = e.entityId) with
  | none =>
    have hnone := List.find?_eq_none.mp hfind e he
    simp at hnone
  | some e' =>
    have hid := List.find?_some hfind
    rw [List.inj_on_of_nodup_map t.entity_ids (List.mem_of_find?_eq_some hfind) he (by simpa using hid)]

theorem getEntityId_isSome (domain platform uniqueId : String) :
    (t.getEntityId domain platform uniqueId).isSome = true ↔
      ∃ e ∈ t.entities, e.key = (domain, platform, uniqueId) := by
  simp [getEntityId, Option.isSome_map, List.find?_isSome]

theorem removeConfigEntry_released {d : DeviceEntry} (hd : d ∈ t.devices) (entryId : String) :
    ∃ t', t.removeConfigEntry d.id entryId = .ok t' ∧ tables.Released d.id entryId t t' := by
  have hany : t.devices.any (·.id = d.id) = true := List.any_eq_true.mpr ⟨d, hd, by simp⟩
  refine ⟨_, by rw [removeConfigEntry, if_pos hany], ?_⟩
  constructor
  · intro d' hid
    simp only [tables, List.mem_filterMap]
    constructor
    · rintro ⟨d₀, hd₀, hrel⟩
      have hid₀ := releaseDevice_id hrel
      rw [releaseDevice, if_neg (by rwa [← hid₀])] at hrel
      rwa [← Option.some.inj hrel]
    · exact fun hd' => ⟨d', hd', by rw [releaseDevice, if_neg hid]⟩
  · rintro d' hd' hid ⟨c, hc, hne⟩
    refine List.mem_filterMap.mpr ⟨d', hd', ?_⟩
    rw [releaseDevice, if_pos hid, if_neg]
    exact List.ne_nil_of_mem (List.mem_filter.mpr ⟨hc, by simpa using hne⟩)
  · intro d' hd' hid
    obtain ⟨d₀, hd₀, hrel⟩ := List.mem_filterMap.mp hd'
    have hid₀ : d₀.id = d.id := (releaseDevice_id hrel).symm.trans hid
    rw [releaseDevice, if_pos hid₀] at hrel
    split_ifs at hrel
    exact ⟨d₀, hd₀, hid₀, (Option.some.inj hrel).symm⟩
  · intro e he hnot
    exact List.mem_filterMap.mpr ⟨e, he, by rw [releaseEntity, if_neg hnot]⟩
  · intro e' he'
    obtain ⟨e, he, hrel⟩ := List.mem_filterMap.mp he'
    refine ⟨e, he, ?_⟩
    unfold releaseEntity at hrel
    split_ifs at hrel with hdevice
    · exact .inr ⟨hdevice, (Option.some.inj hrel).symm⟩
    · exact .inl (Option.some.inj hrel).symm
    · exact .inl (Option.some.inj hrel).symm

theorem newIdentifiers_reidentified {d : DeviceEntry} (hd : d ∈ t.devices) {identifiers : List Identifier}
    (hfree : ∀ d' ∈ t.devices, d'.id ≠ d.id → ∀ i ∈ identifiers, i ∈ d'.identifiers → i ∈ d.identifiers) :
    ∃ t', t.newIdentifiers d.id identifiers = .ok (t', { d with identifiers := identifiers }) ∧
      tables.Reidentified d identifiers t t' := by
  have hany : t.devices.any (fun d' => d'.id ≠ d.id ∧
      identifiers.any (fun i => i ∈ d'.identifiers ∧ i ∉ d.identifiers)) = false := by
    by_contra hcollides
    obtain ⟨d', hd', hid, i, hi, hmem, hnot⟩ := by simpa using hcollides
    exact hnot (hfree d' hd' hid i hi hmem)
  have hcall : t.newIdentifiers d.id identifiers =
      .ok (t.withIdentifiers d.id identifiers, { d with identifiers := identifiers }) := by
    rw [newIdentifiers, find_device hd]
    simp only [hany, Bool.false_eq_true, if_false]
  refine ⟨t.withIdentifiers d.id identifiers, hcall, fun d' => ?_, rfl⟩
  simp only [tables, withIdentifiers, List.mem_map]
  constructor
  · rintro ⟨d₀, hd₀, rfl⟩
    unfold setIdentifiers
    split_ifs with hid
    · rw [List.inj_on_of_nodup_map t.device_ids hd₀ hd hid]
      exact .inr rfl
    · exact .inl ⟨hd₀, hid⟩
  · rintro (⟨hd', hid⟩ | rfl)
    · exact ⟨d', hd', by rw [setIdentifiers, if_neg hid]⟩
    · exact ⟨d, hd, by rw [setIdentifiers, if_pos rfl]⟩

theorem remove_removed {e : RegistryEntry} (he : e ∈ t.entities) :
    ∃ t', t.remove e.entityId = .ok t' ∧ tables.Removed e.entityId t t' := by
  have hany : t.entities.any (·.entityId = e.entityId) = true := List.any_eq_true.mpr ⟨e, he, by simp⟩
  refine ⟨t.without e.entityId, by rw [remove, if_pos hany], rfl, fun e' => ?_⟩
  simp [tables, without, List.mem_filter]

theorem newUniqueId_rekeyed {e : RegistryEntry} (he : e ∈ t.entities) {uniqueId : String}
    (hfree : ∀ e' ∈ t.entities, e'.key ≠ (e.domain, e.platform, uniqueId)) :
    ∃ t', t.newUniqueId e.entityId uniqueId = .ok t' ∧ tables.Rekeyed e uniqueId t t' := by
  have hnone : (t.getEntityId e.domain e.platform uniqueId).isSome = false := by
    by_contra htaken
    rw [Bool.not_eq_false, getEntityId_isSome] at htaken
    obtain ⟨e', he', hkey⟩ := htaken
    exact hfree e' he' hkey
  have hcall : t.newUniqueId e.entityId uniqueId = .ok (t.withUniqueId e.entityId uniqueId) := by
    rw [newUniqueId, find_entity he]
    simp only [hnone, Bool.false_eq_true, if_false]
  refine ⟨t.withUniqueId e.entityId uniqueId, hcall, rfl, fun e' => ?_⟩
  simp only [tables, withUniqueId, List.mem_map]
  constructor
  · rintro ⟨e₀, he₀, rfl⟩
    unfold setUniqueId
    split_ifs with hid
    · rw [List.inj_on_of_nodup_map t.entity_ids he₀ he hid]
      exact .inr rfl
    · exact .inl ⟨he₀, hid⟩
  · rintro (⟨he', hid⟩ | rfl)
    · exact ⟨e', he', by rw [setUniqueId, if_neg hid]⟩
    · exact ⟨e, he, by rw [setUniqueId, if_pos rfl]⟩

end Tables

theorem tables_documented : tables.Documented where
  device_ids t := t.device_ids
  entity_ids t := t.entity_ids
  removeConfigEntry _ _ entryId hd := Tables.removeConfigEntry_released hd entryId
  newIdentifiers _ _ _ hd hfree := Tables.newIdentifiers_reidentified hd hfree
  getEntityId _ _ _ _ := Tables.getEntityId_isSome _ _ _
  remove _ _ he := Tables.remove_removed he
  newUniqueId _ _ _ he hfree := Tables.newUniqueId_rekeyed he hfree

theorem toLower_eq_dash {c : Char} (h : '-' ∈ [c.toLower]) : c = '-' := by
  have hlower : '-' = c.toLower := List.mem_singleton.mp h
  unfold Char.toLower at hlower
  split_ifs at hlower with hupper
  · have hval := congrArg (fun d : Char => d.val.toNat) hlower
    obtain ⟨hge, hle⟩ := hupper
    simp only [UInt32.le_iff_toNat_le] at hge hle
    simp only [UInt32.toNat_add] at hval
    have hA : 'A'.val.toNat = 65 := rfl
    have hZ : 'Z'.val.toNat = 90 := rfl
    have hshift : ('a'.val - 'A'.val).toNat = 32 := rfl
    have hdash : '-'.val.toNat = 45 := rfl
    omega
  · exact hlower.symm

/-- Lower case as far as ASCII goes. -/
def asciiLower : StrLower where
  char c := [c.toLower]
  dash := rfl
  dash_only _ := toLower_eq_dash

/-! A rollback: the address, in capitals, on a device shared with ZHA, on a
second device, and on two rows of which one is already there under the entry's id. -/

namespace Rollback

def entry : LockEntry := ⟨"01JX5V", "0c:ae:5f", by decide, by decide⟩

def shared : DeviceEntry :=
  ⟨"d1", [⟨"zha", ["0c:ae:5f"]⟩, ⟨registryDomain, ["0C:AE:5F"]⟩], ["01JX5V", "zha-entry"]⟩

def duplicate : DeviceEntry := ⟨"d2", [⟨registryDomain, ["0c:ae:5f"]⟩], ["01JX5V"]⟩

def row (entityId uniqueId : String) : RegistryEntry :=
  ⟨entityId, "sensor", registryDomain, uniqueId, some "01JX5V", some "d1", none⟩

def found : Tables where
  devices := [shared, duplicate]
  entities := [row "sensor.lock_activity" "0C:AE:5F-activity", row "sensor.lock_slot_5" "01JX5V-slot-5",
    row "sensor.lock_slot_5_2" "0c:ae:5f-slot-5"]
  device_ids := by decide
  entity_ids := by decide

end Rollback

open Rollback in
theorem migration_total_rollback : ∃ t, migrateToEntryIdKeys tables asciiLower entry found = .ok t ∧
    Migrated tables asciiLower entry found t ∧
      t.entities = [row "sensor.lock_activity" "01JX5V-activity", row "sensor.lock_slot_5" "01JX5V-slot-5"] := by
  have hpairs : ∀ d ∈ found.devices, entry.entryId ∈ d.configEntries → ∀ i ∈ d.identifiers, i.IsPair := by
    simp [found, shared, duplicate, Identifier.IsPair, registryDomain]
  obtain ⟨t, ht, hmigrated⟩ := migration_total tables tables_documented asciiLower entry (by decide) found hpairs
    (by decide) (by decide)
  have hrows : (migrateToEntryIdKeys tables asciiLower entry found).map Tables.entities =
      .ok [row "sensor.lock_activity" "01JX5V-activity", row "sensor.lock_slot_5" "01JX5V-slot-5"] := by
    rfl
  rw [ht] at hrows
  exact ⟨t, ht, hmigrated, Except.ok.inj hrows⟩

end OnestiLock
