import OnestiLock.StateSave

/-! Which dictionaries `Enrollment.from_dict` accepts, and that an enrollment
goes to a dictionary and back, whatever spelling it was first read from. -/

namespace OnestiLock

open Python Json

/-- A field holds the bytes in one of the hex spellings that are read. -/
def SpellsBytes (fields : List (Text × Value)) (key : String) (b : Bytes) : Prop :=
  ∃ s, get fields (text key) = .str s ∧ bytesFromHex s = some b

/-- A field that is null or missing holds no bytes. -/
def SpellsOptional (fields : List (Text × Value)) (key : String) : Option Bytes → Prop
  | none => get fields (text key) = .null
  | some b => SpellsBytes fields key b

/-- The fields other than the format hold an enrollment's. -/
structure Spells (fields : List (Text × Value)) (e : EnrollmentFields) : Prop where
  deviceId : SpellsBytes fields "device_id" e.deviceId
  ownerKey : SpellsBytes fields "owner_key" e.ownerKey
  serverPrivateKey : SpellsBytes fields "server_private_key" e.serverPrivateKey
  lockServerPublicKey : SpellsOptional fields "lock_server_public_key" e.lockServerPublicKey
  updatePrivateKey : SpellsOptional fields "update_private_key" e.updatePrivateKey
  lockUpdatePublicKey : SpellsOptional fields "lock_update_public_key" e.lockUpdatePublicKey
  name : ∃ s, get fields (text "name") = .str s ∧ nameOf s = e.name
  userId : get fields (text "user_id") = .int e.userId ∨
    ∃ b, get fields (text "user_id") = .bool b ∧ e.userId = if b then 1 else 0
  completed : ∃ items steps, get fields (text "completed") = .list items ∧
    items.mapM stepOf = some steps ∧ steps.toFinset = e.completed

/-! One reader after another. -/

variable {fields : List (Text × Value)} {key : String}

theorem hexField_iff {b : Bytes} : hexField fields key = .ok b ↔ SpellsBytes fields key b := by
  unfold hexField SpellsBytes
  cases get fields (text key) with
  | str s => cases hs : bytesFromHex s <;> simp [hs]
  | _ => simp

theorem optionalHexField_iff {b : Option Bytes} :
    optionalHexField fields key = .ok b ↔ SpellsOptional fields key b := by
  have hsome : (∀ v, get fields (text key) = v → v ≠ .null) →
      (optionalHexField fields key = .ok b ↔ SpellsOptional fields key b) := by
    intro hne
    have hread : optionalHexField fields key = (hexField fields key).map some := by
      unfold optionalHexField
      split
      · rename_i hnull
        exact absurd rfl (hne _ hnull)
      · rfl
    rw [hread]
    cases b with
    | none =>
      refine iff_of_false ?_ (fun hnull => hne _ hnull rfl)
      cases hexField fields key <;> simp [Except.map]
    | some b =>
      rw [SpellsOptional, ← hexField_iff]
      cases hexField fields key <;> simp [Except.map]
  cases hv : get fields (text key) with
  | null =>
    cases b with
    | none => simp [optionalHexField, SpellsOptional, hv]
    | some b => simp [optionalHexField, SpellsOptional, SpellsBytes, hv]
  | _ => exact hsome (by rintro v rfl; simp [hv])

theorem nameField_iff {name : String} :
    nameField fields = .ok name ↔ ∃ s, get fields (text "name") = .str s ∧ nameOf s = name := by
  unfold nameField
  cases get fields (text "name") <;> simp

theorem userIdField_iff {userId : Int} : userIdField fields = .ok userId ↔
    get fields (text "user_id") = .int userId ∨
      ∃ b, get fields (text "user_id") = .bool b ∧ userId = if b then 1 else 0 := by
  unfold userIdField
  cases get fields (text "user_id") <;> simp [eq_comm]

theorem completedSteps_iff {completed : Finset EnrollmentStep} :
    completedSteps fields = .ok completed ↔ ∃ items steps, get fields (text "completed") = .list items ∧
      items.mapM stepOf = some steps ∧ steps.toFinset = completed := by
  unfold completedSteps
  cases get fields (text "completed") with
  | list items => cases hs : items.mapM stepOf <;> simp [hs]
  | _ => simp

theorem constructed_iff {prim : Primitives} {e : EnrollmentFields} {loaded : Enrollment prim} :
    constructed prim e = .ok loaded ↔ loaded.toEnrollmentFields = e := by
  constructor
  · intro h
    unfold constructed Enrollment.ofFields at h
    split at h
    · rename_i made hmade
      split at hmade
      · obtain rfl := Except.ok.inj hmade
        obtain rfl := Except.ok.inj h
        rfl
      · cases hmade
    · cases h
  · rintro rfl
    rw [constructed, Enrollment.ofFields_ok loaded.valid]

/-- `format in READABLE_ENROLLMENT_FORMATS`, whether it is written 2, 2.0 or, for 1, as true. -/
def ReadableFormat (fields : List (Text × Value)) : Prop :=
  (get fields (text "format")).isTwoPow 0 = true ∨ (get fields (text "format")).isTwoPow 1 = true

theorem checkFormat_iff {u : Unit} : checkFormat fields = .ok u ↔ ReadableFormat fields := by
  unfold checkFormat ReadableFormat
  cases hv : get fields (text "format") with
  | list items => simp [Value.hashable, Value.isTwoPow]
  | object items => simp [Value.hashable, Value.isTwoPow]
  | _ =>
    simp only [Value.hashable, Bool.true_eq_false, if_false]
    split <;> simp_all

/-- The dictionaries `from_dict` takes, and what it makes of them. -/
theorem enrollmentFromDict_iff {prim : Primitives} {loaded : Enrollment prim} :
    enrollmentFromDict prim (.object fields) = .ok loaded ↔
      ReadableFormat fields ∧ Spells fields loaded.toEnrollmentFields := by
  simp only [enrollmentFromDict, bind_eq_ok, checkFormat_iff, completedSteps_iff, nameField_iff,
    userIdField_iff, hexField_iff, optionalHexField_iff, constructed_iff]
  constructor
  · rintro ⟨-, hformat, completed, hcompleted, name, hname, userId, huser, deviceId, hdevice, ownerKey,
      howner, server, hserver, lockServer, hlockServer, update, hupdate, lockUpdate, hlockUpdate, heq⟩
    rw [heq]
    exact ⟨hformat, hdevice, howner, hserver, hlockServer, hupdate, hlockUpdate, hname, huser, hcompleted⟩
  · rintro ⟨hformat, h⟩
    exact ⟨(), hformat, _, h.completed, _, h.name, _, h.userId, _, h.deviceId, _, h.ownerKey, _,
      h.serverPrivateKey, _, h.lockServerPublicKey, _, h.updatePrivateKey, _, h.lockUpdatePublicKey, rfl⟩

/-- Format 1 has no owner key material. -/
structure FormatOne (fields : List (Text × Value)) : Prop where
  format : (get fields (text "format")).isTwoPow 0 = true
  updatePrivateKey : get fields (text "update_private_key") = .null
  lockUpdatePublicKey : get fields (text "lock_update_public_key") = .null

theorem SpellsOptional.eq_none {b : Option Bytes} (h : SpellsOptional fields key b)
    (hnull : get fields (text key) = .null) : b = none := by
  cases b with
  | none => rfl
  | some b =>
    obtain ⟨s, hs, -⟩ := h
    rw [hnull] at hs
    cases hs

theorem toDict_injective {prim : Primitives} {e e' : Enrollment prim} (h : e.toDict = e'.toDict) : e = e' := by
  have hback := enrollmentFromDict_toDict e
  rw [h, enrollmentFromDict_toDict] at hback
  exact (Except.ok.inj hback).symm

/-- An enrollment goes to its dictionary and back, a dictionary of the first format is
read as one without an update key and written in the second, and what is read holds
whatever it was spelled like. -/
theorem enrollment_stored (prim : Primitives) :
    (∀ e : Enrollment prim, enrollmentFromDict prim (.object e.toDict) = .ok e) ∧
    (∀ e e' : Enrollment prim, e.toDict = e'.toDict → e = e') ∧
    (∀ (fields : List (Text × Value)) (e : EnrollmentFields), FormatOne fields → Spells fields e →
      e.Valid prim → ∃ loaded : Enrollment prim, enrollmentFromDict prim (.object fields) = .ok loaded ∧
        loaded.toEnrollmentFields = e ∧ loaded.updatePrivateKey = none ∧ loaded.lockUpdatePublicKey = none ∧
        get loaded.toDict (text "format") = .int 2 ∧
        enrollmentFromDict prim (.object loaded.toDict) = .ok loaded) ∧
    ∀ (fields : List (Text × Value)) (loaded : Enrollment prim),
      enrollmentFromDict prim (.object fields) = .ok loaded →
        loaded.toEnrollmentFields.postInit prim = .ok () ∧
        enrollmentFromDict prim (.object fields) = enrollmentFromDict prim (.object loaded.toDict) := by
  refine ⟨enrollmentFromDict_toDict, fun e e' h => toDict_injective h, ?_, ?_⟩
  · intro fields e hone hspells hvalid
    let loaded : Enrollment prim := ⟨e, hvalid⟩
    have hread : enrollmentFromDict prim (.object fields) = .ok loaded :=
      enrollmentFromDict_iff.mpr ⟨.inl hone.format, hspells⟩
    have hupdate := hspells.updatePrivateKey.eq_none hone.updatePrivateKey
    have hlockUpdate := hspells.lockUpdatePublicKey.eq_none hone.lockUpdatePublicKey
    exact ⟨loaded, hread, rfl, hupdate, hlockUpdate, rfl, enrollmentFromDict_toDict loaded⟩
  · intro fields loaded h
    have hvalid := (EnrollmentFields.postInit_ok prim).mpr loaded.valid
    exact ⟨hvalid, h.trans (enrollmentFromDict_toDict loaded).symm⟩

/-- A dictionary of the first format. -/
def formatOne : List (Text × Value) :=
  [(text "format", .int 1), (text "device_id", .str (text "001122 334455")),
    (text "owner_key", .str (text "000102030405060708090A0B0C0D0E0F")),
    (text "server_private_key", .str (text "0100000000000000000000000000000000000000000000000000000000000000")),
    (text "name", .str (text "Front")), (text "user_id", .int 1), (text "completed", .list [.str (text "owner_key")])]

example : (enrollmentFromDict .scalarOne (.object formatOne)).toOption.map (fun e => (e.deviceId, e.updatePrivateKey)) =
    some ([0x00, 0x11, 0x22, 0x33, 0x44, 0x55], none) := by decide +kernel

end OnestiLock
