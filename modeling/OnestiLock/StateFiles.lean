import OnestiLock.StateSave

/-! What a bad state file does to reading the state directory. -/

namespace OnestiLock

open Python Json

/-- No exception other than a refusal. -/
def Refuses {α : Type} (x : Except DictFault α) : Prop := ∀ name, x ≠ .error (.raised name)

namespace Refuses

variable {α β : Type}

theorem ok (a : α) : Refuses (.ok a) := by
  intro name h
  cases h

theorem refused (e : BleValidationError) : Refuses (.error (.refused e) : Except DictFault α) := by
  intro name h
  cases h

theorem bind {x : Except DictFault α} {f : α → Except DictFault β} (hx : Refuses x)
    (hf : ∀ a, Refuses (f a)) : Refuses (x >>= f) := by
  cases x with
  | ok a => exact hf a
  | error e =>
    intro name h
    have he : e = .raised name := by cases h; rfl
    exact hx name (by rw [he])

theorem map {x : Except DictFault α} {f : α → β} (hx : Refuses x) : Refuses (x.map f) := by
  cases x with
  | ok a => exact ok (f a)
  | error e =>
    intro name h
    have he : e = .raised name := by cases h; rfl
    exact hx name (by rw [he])

end Refuses

section

variable (fields : List (Text × Value))

theorem refuses_hexField (key : String) : Refuses (hexField fields key) := by
  unfold hexField
  cases get fields (text key) with
  | str s =>
    cases hs : bytesFromHex s with
    | none => simpa [hs] using Refuses.refused _
    | some b => simpa [hs] using Refuses.ok b
  | _ => exact Refuses.refused _

theorem refuses_optionalHexField (key : String) : Refuses (optionalHexField fields key) := by
  unfold optionalHexField
  split
  · exact Refuses.ok none
  · exact (refuses_hexField fields key).map

theorem refuses_completedSteps : Refuses (completedSteps fields) := by
  unfold completedSteps
  cases get fields (text "completed") with
  | list items =>
    cases hs : items.mapM stepOf with
    | none => simpa [hs] using Refuses.refused _
    | some steps => simpa [hs] using Refuses.ok steps.toFinset
  | _ => exact Refuses.refused _

theorem refuses_nameField : Refuses (nameField fields) := by
  unfold nameField
  cases get fields (text "name") with
  | str s => exact Refuses.ok (nameOf s)
  | _ => exact Refuses.refused _

theorem refuses_userIdField : Refuses (userIdField fields) := by
  unfold userIdField
  cases get fields (text "user_id") with
  | int n => exact Refuses.ok n
  | bool b => exact Refuses.ok (if b then 1 else 0)
  | _ => exact Refuses.refused _

theorem refuses_checkFormat_iff :
    Refuses (checkFormat fields) ↔ (get fields (text "format")).hashable = true := by
  unfold checkFormat
  cases hh : (get fields (text "format")).hashable with
  | false =>
    refine iff_of_false (fun h => h "TypeError" ?_) (by simp)
    simp [hh]
  | true =>
    refine iff_of_true ?_ rfl
    simp only [hh, Bool.true_eq_false, if_false]
    split
    · exact Refuses.ok ()
    · exact Refuses.refused _

theorem refuses_constructed (prim : Primitives) (e : EnrollmentFields) : Refuses (constructed prim e) := by
  unfold constructed
  cases Enrollment.ofFields prim e with
  | ok enrollment => exact Refuses.ok enrollment
  | error e => exact Refuses.refused e

/-- A dict gets a refusal for everything but a format that cannot be hashed. -/
theorem refuses_fromDict_iff (prim : Primitives) :
    Refuses (enrollmentFromDict prim (.object fields)) ↔ (get fields (text "format")).hashable = true := by
  constructor
  · intro h
    refine (refuses_checkFormat_iff fields).mp (fun name hname => ?_)
    refine h name ?_
    simp only [enrollmentFromDict, hname]
    rfl
  · intro h
    refine Refuses.bind ((refuses_checkFormat_iff fields).mpr h) (fun _ => ?_)
    refine (refuses_completedSteps fields).bind (fun _ => ?_)
    refine (refuses_nameField fields).bind (fun _ => ?_)
    refine (refuses_userIdField fields).bind (fun _ => ?_)
    refine (refuses_hexField fields "device_id").bind (fun _ => ?_)
    refine (refuses_hexField fields "owner_key").bind (fun _ => ?_)
    refine (refuses_hexField fields "server_private_key").bind (fun _ => ?_)
    refine (refuses_optionalHexField fields "lock_server_public_key").bind (fun _ => ?_)
    refine (refuses_optionalHexField fields "update_private_key").bind (fun _ => ?_)
    refine (refuses_optionalHexField fields "lock_update_public_key").bind (fun _ => ?_)
    exact refuses_constructed prim _

end

/-- An enrollment is left out or empty, or it is a dict whose format has a hash. -/
def SoundEnrollment (v : Value) : Prop :=
  v.truthy = true → ∃ fields, v = .object fields ∧ (get fields (text "format")).hashable = true

/-- A file that cannot be opened; or UTF-8 that is either not JSON or JSON within
Python's limits, and if it has the format of a state file, a sound enrollment. -/
def SoundFile (maxDepth : Nat) (file : File) : Prop :=
  ∀ bytes, file = .ok bytes → ∃ t, decodeUtf8 bytes = some t ∧
    loads maxDepth t ≠ .error .longInteger ∧ loads maxDepth t ≠ .error .tooDeep ∧
    ∀ fields, loads maxDepth t = .ok (.object fields) → (get fields (text "format")).isTwoPow 0 = true →
      SoundEnrollment (get fields (text "enrollment"))

/-- It returns, or it raises a `CliError`. -/
def Behaves {α : Type} (x : Except CliExn α) : Prop :=
  (∃ a, x = .ok a) ∨ ∃ message exitCode, x = .error (.cli message exitCode)

theorem behaves_ok {α : Type} (a : α) : Behaves (.ok a) := Or.inl ⟨a, rfl⟩

theorem behaves_cli {α : Type} (message : Text) (exitCode : Nat) :
    Behaves (.error (.cli message exitCode) : Except CliExn α) := Or.inr ⟨message, exitCode, rfl⟩

theorem not_behaves_exn {α : Type} (e : Exn) : ¬ Behaves (.error (.exn e) : Except CliExn α) := by
  intro h
  rcases h with ⟨a, ha⟩ | ⟨message, exitCode, he⟩
  · cases ha
  · cases he

section

variable (prim : Primitives) (maxDepth : Nat)

theorem refuses_stored_iff (v : Value) :
    Refuses (enrollmentFromDict prim (if v.truthy then v else .object [])) ↔ SoundEnrollment v := by
  cases hv : v.truthy with
  | false =>
    refine iff_of_true ?_ (fun h => by rw [hv] at h; cases h)
    exact (refuses_fromDict_iff [] prim).mpr rfl
  | true =>
    have hraises : ∀ v : Value, enrollmentFromDict prim v = .error (.raised "AttributeError") →
        ¬ Refuses (enrollmentFromDict prim v) := fun v h hr => hr _ h
    cases v with
    | object fields =>
      refine (refuses_fromDict_iff fields prim).trans ⟨fun h _ => ⟨fields, rfl, h⟩, fun h => ?_⟩
      obtain ⟨same, hsame, hhash⟩ := h hv
      cases hsame
      exact hhash
    | _ =>
      refine iff_of_false (hraises _ rfl) (fun h => ?_)
      obtain ⟨fields, hfields, -⟩ := h hv
      cases hfields

theorem behaves_readState_iff (path : Text) (data : Value) :
    Behaves (readState prim path data) ↔
      ∀ fields, data = .object fields → (get fields (text "format")).isTwoPow 0 = true →
        SoundEnrollment (get fields (text "enrollment")) := by
  cases data with
  | object fields =>
    cases hformat : (get fields (text "format")).isTwoPow 0 with
    | false =>
      simp only [readState, hformat, Bool.false_eq_true, if_false]
      refine iff_of_true (behaves_cli _ _) (fun same hsame h => ?_)
      cases hsame
      rw [hformat] at h
      cases h
    | true =>
      simp only [readState, hformat, if_true]
      have hstored := refuses_stored_iff prim (get fields (text "enrollment"))
      have hsame : (∀ same, Value.object fields = .object same →
          (get same (text "format")).isTwoPow 0 = true → SoundEnrollment (get same (text "enrollment"))) ↔
          SoundEnrollment (get fields (text "enrollment")) := by
        constructor
        · intro h
          exact h fields rfl hformat
        · intro h same hs _
          cases hs
          exact h
      rw [hsame, ← hstored]
      cases enrollmentFromDict prim (if (get fields (text "enrollment")).truthy then
          get fields (text "enrollment") else .object []) with
      | ok enrollment => exact iff_of_true (behaves_ok _) (Refuses.ok enrollment)
      | error e =>
        cases e with
        | refused e => exact iff_of_true (behaves_cli _ _) (Refuses.refused e)
        | raised name => exact iff_of_false (not_behaves_exn _) (fun h => h name rfl)
  | _ =>
    refine iff_of_true (behaves_cli _ _) (fun fields h => ?_)
    cases h

theorem readState_path {path : Text} {data : Value} {stored : StoredLock prim}
    (h : readState prim path data = .ok stored) : stored.path = path := by
  cases data with
  | object fields =>
    cases hformat : (get fields (text "format")).isTwoPow 0 with
    | false => simp [readState, hformat] at h
    | true =>
      simp only [readState, hformat, if_true] at h
      cases he : enrollmentFromDict prim (if (get fields (text "enrollment")).truthy then
          get fields (text "enrollment") else .object []) with
      | ok enrollment =>
        rw [he] at h
        cases h
        rfl
      | error fault =>
        rw [he] at h
        cases fault <;> cases h
  | _ => cases h

theorem load_path {path : Text} {file : File} {stored : StoredLock prim}
    (h : load prim maxDepth path file = .ok stored) : stored.path = path := by
  cases file with
  | error strerror => cases h
  | ok bytes =>
    cases ht : decodeUtf8 bytes with
    | none => simp [load, ht] at h
    | some t =>
      cases hl : loads maxDepth t with
      | ok data => exact readState_path prim (by simpa [load, ht, hl] using h)
      | error fault => cases fault <;> simp [load, ht, hl] at h

theorem behaves_load_iff (path : Text) (file : File) :
    Behaves (load prim maxDepth path file) ↔ SoundFile maxDepth file := by
  cases file with
  | error strerror =>
    refine iff_of_true (behaves_cli _ _) (fun bytes h => ?_)
    cases h
  | ok bytes =>
    have hsound : SoundFile maxDepth (.ok bytes) ↔ ∃ t, decodeUtf8 bytes = some t ∧
        loads maxDepth t ≠ .error .longInteger ∧ loads maxDepth t ≠ .error .tooDeep ∧
        ∀ fields, loads maxDepth t = .ok (.object fields) →
          (get fields (text "format")).isTwoPow 0 = true → SoundEnrollment (get fields (text "enrollment")) := by
      constructor
      · intro h
        exact h bytes rfl
      · intro h same hsame
        cases hsame
        exact h
    rw [hsound]
    simp only [load]
    cases decodeUtf8 bytes with
    | none => exact iff_of_false (not_behaves_exn _) (by simp)
    | some t =>
      simp only [Option.some.injEq, exists_eq_left']
      cases loads maxDepth t with
      | error fault =>
        cases fault with
        | malformed => exact iff_of_true (behaves_cli _ _) (by simp)
        | longInteger => exact iff_of_false (not_behaves_exn _) (by simp)
        | tooDeep => exact iff_of_false (not_behaves_exn _) (by simp)
      | ok data => simpa using behaves_readState_iff prim path data

/-- The lock of a file that loads. -/
def loaded (directory : Text) (f : Text × File) : Option (StoredLock prim) :=
  (load prim maxDepth (directory ++ text "/" ++ f.1) f.2).toOption

theorem loadAll_iff (directory : Text) (files : Directory) :
    loadAll prim maxDepth directory files = .ok (files.filterMap (loaded prim maxDepth directory)) ↔
      ∀ f ∈ files, SoundFile maxDepth f.2 := by
  induction files with
  | nil => simp [loadAll]
  | cons f rest ih =>
    obtain ⟨name, file⟩ := f
    have hfile := behaves_load_iff prim maxDepth (directory ++ text "/" ++ name) file
    have hloaded : loaded prim maxDepth directory (name, file) =
        (load prim maxDepth (directory ++ text "/" ++ name) file).toOption := rfl
    rw [List.forall_mem_cons, ← ih, ← hfile, loadAll, List.filterMap_cons, hloaded]
    cases load prim maxDepth (directory ++ text "/" ++ name) file with
    | ok stored =>
      have hone : ∀ x : Except CliExn (List (StoredLock prim)), ∀ l,
          x.map (fun l => stored :: l) = .ok (stored :: l) ↔ x = .ok l := by
        intro x l
        cases x <;> simp [Except.map]
      simpa [Except.toOption, behaves_ok] using hone _ _
    | error e =>
      cases e with
      | cli message exitCode => simp [Except.toOption, behaves_cli]
      | exn e => simp [not_behaves_exn]

theorem loadAll_ok {directory : Text} {files : Directory} {l : List (StoredLock prim)}
    (h : loadAll prim maxDepth directory files = .ok l) : l = files.filterMap (loaded prim maxDepth directory) := by
  induction files generalizing l with
  | nil =>
    cases h
    rfl
  | cons f rest ih =>
    obtain ⟨name, file⟩ := f
    have hloaded : loaded prim maxDepth directory (name, file) =
        (load prim maxDepth (directory ++ text "/" ++ name) file).toOption := rfl
    rw [List.filterMap_cons, hloaded]
    rw [loadAll] at h
    cases hl : load prim maxDepth (directory ++ text "/" ++ name) file with
    | ok stored =>
      simp only [hl] at h
      cases hr : loadAll prim maxDepth directory rest with
      | ok tail =>
        rw [hr] at h
        cases h
        rw [ih hr]
        rfl
      | error e =>
        rw [hr] at h
        cases h
    | error e =>
      cases e with
      | cli message exitCode =>
        simp only [hl] at h
        exact ih h
      | exn e =>
        simp only [hl] at h
        cases h

theorem storedLocks_ok_iff {directory : Text} {files : Option Directory} {l : List (StoredLock prim)} :
    storedLocks prim maxDepth directory files = .ok l ↔
      (∀ f ∈ jsonFiles (files.getD []), SoundFile maxDepth f.2) ∧
        l = (jsonFiles (files.getD [])).filterMap (loaded prim maxDepth directory) := by
  have hfiles : storedLocks prim maxDepth directory files =
      loadAll prim maxDepth directory (jsonFiles (files.getD [])) := by
    cases files with
    | none => simp [storedLocks, jsonFiles, loadAll]
    | some files => rfl
  rw [hfiles, ← loadAll_iff prim maxDepth directory]
  constructor
  · intro h
    have hl := loadAll_ok prim maxDepth h
    exact ⟨hl ▸ h, hl⟩
  · rintro ⟨h, rfl⟩
    exact h

theorem mem_jsonFiles {files : Directory} {f : Text × File} :
    f ∈ jsonFiles files ↔ f ∈ files ∧ (text ".json").isSuffixOf f.1 = true := by
  simp [jsonFiles]

theorem jsonFiles_sorted (files : Directory) : (jsonFiles files).Pairwise (fun a b => Text.le a.1 b.1 = true) :=
  List.pairwise_mergeSort (fun a b c => Text.le_trans a.1 b.1 c.1) (fun a b => Text.le_total a.1 b.1) _

/-- A file is loaded or refused, and the locks of the others are found in order,
as long as each file is sound. -/
theorem stateFiles_hide_none_iff (directory path : Text) (file : File) (files : Directory) :
    (Behaves (load prim maxDepth path file) ↔ SoundFile maxDepth file) ∧
    (storedLocks prim maxDepth directory (some files) =
        .ok ((jsonFiles files).filterMap (loaded prim maxDepth directory)) ↔
      ∀ f ∈ files, (text ".json").isSuffixOf f.1 = true → SoundFile maxDepth f.2) ∧
    (jsonFiles files).Pairwise (fun a b => Text.le a.1 b.1 = true) ∧
    (jsonFiles files).Perm (files.filter (fun f => (text ".json").isSuffixOf f.1)) ∧
    storedLocks prim maxDepth directory none = .ok [] := by
  refine ⟨behaves_load_iff prim maxDepth path file, ?_, jsonFiles_sorted files, List.mergeSort_perm _ _, rfl⟩
  have hall := loadAll_iff prim maxDepth directory (jsonFiles files)
  refine hall.trans ⟨fun h f hf hj => h f (mem_jsonFiles.mpr ⟨hf, hj⟩), fun h f hf => ?_⟩
  have hmem := mem_jsonFiles.mp hf
  exact h f hmem.1 hmem.2

end

/-! The front door's file, and one byte that is not UTF-8. -/

def frontDoorData : StateData Primitives.scalarOne :=
  ⟨some (text "AA:BB:CC:DD:EE:FF"), text "2026-01-01T00:00:00.000+00:00", frontDoor⟩

theorem frontDoorData_legible : frontDoorData.Legible where
  address _ h := Option.some.inj h ▸ unpaired_text "AA:BB:CC:DD:EE:FF"
  saved := unpaired_text "2026-01-01T00:00:00.000+00:00"

def frontDoorFile : Text × File := (text "lock-7192385c3c0605de.json", .ok frontDoorData.file)

/-- One bad file hides the good one. -/
theorem stateFiles_hide_frontDoor :
    storedLocks Primitives.scalarOne 1000 (text "state") (some [frontDoorFile]) =
      .ok [⟨text "state/lock-7192385c3c0605de.json", frontDoor, frontDoorData.address⟩] ∧
    load Primitives.scalarOne 1000 (text "state/a.json") (.ok [0xFF]) =
      .error (.exn (.other "UnicodeDecodeError")) ∧
    storedLocks Primitives.scalarOne 1000 (text "state") (some [(text "a.json", .ok [0xFF]), frontDoorFile]) =
      .error (.exn (.other "UnicodeDecodeError")) := by
  have hpath : text "state" ++ text "/" ++ frontDoorFile.1 = text "state/lock-7192385c3c0605de.json" := by decide
  have hload : load Primitives.scalarOne 1000 (text "state/lock-7192385c3c0605de.json") (.ok frontDoorData.file) =
      .ok ⟨text "state/lock-7192385c3c0605de.json", frontDoor, frontDoorData.address⟩ :=
    load_file frontDoorData_legible (by decide) _
  have hbad : decodeUtf8 [0xFF] = none := by decide
  have hone : jsonFiles [frontDoorFile] = [frontDoorFile] := by
    have hjson : (text ".json").isSuffixOf frontDoorFile.1 = true := by decide
    simp [jsonFiles, hjson]
  have htwo : jsonFiles [(text "a.json", .ok [0xFF]), frontDoorFile] =
      [(text "a.json", .ok [0xFF]), frontDoorFile] := by
    have hjson : (text ".json").isSuffixOf (text "a.json") = true ∧
        (text ".json").isSuffixOf frontDoorFile.1 = true := by decide
    have hle : Text.le (text "a.json") frontDoorFile.1 = true := by decide
    have hboth : [(text "a.json", .ok [0xFF]), frontDoorFile].filter
        (fun f : Text × File => (text ".json").isSuffixOf f.1) = [(text "a.json", .ok [0xFF]), frontDoorFile] := by
      simp [hjson]
    rw [jsonFiles, hboth]
    exact List.mergeSort_of_pairwise (by simp [hle])
  refine ⟨?_, ?_, ?_⟩
  · simp only [storedLocks, hone]
    rw [show frontDoorFile = (frontDoorFile.1, .ok frontDoorData.file) from rfl, loadAll, hpath, hload]
    rfl
  · simp only [load, hbad]
  · simp only [storedLocks, htwo, loadAll, load, hbad]

end OnestiLock
