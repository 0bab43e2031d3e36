import OnestiLock.JsonRoundTrip
import OnestiLock.StateStore

/-! What `StateStore.save` writes, and that `StateStore.load` reads it back. -/

namespace OnestiLock

open Python Json

/-- `bytes.hex`. -/
def hexText (b : Bytes) : Text := b.flatMap (fun x => [hexDigit (x.toNat / 16), hexDigit (x.toNat % 16)])

def optionalHex : Option Bytes → Value
  | none => .null
  | some b => .str (hexText b)

def enrollmentFormat : Int := 2

/-- `Enrollment.to_dict`. -/
def EnrollmentFields.toDict (e : EnrollmentFields) : List (Text × Value) :=
  [(text "format", .int enrollmentFormat),
    (text "user_id", .int e.userId),
    (text "device_id", .str (hexText e.deviceId)),
    (text "owner_key", .str (hexText e.ownerKey)),
    (text "server_private_key", .str (hexText e.serverPrivateKey)),
    (text "lock_server_public_key", optionalHex e.lockServerPublicKey),
    (text "update_private_key", optionalHex e.updatePrivateKey),
    (text "lock_update_public_key", optionalHex e.lockUpdatePublicKey),
    (text "name", .str (text e.name)),
    (text "completed", .list ((EnrollmentStep.all.filter (fun step => decide (step ∈ e.completed))).map
      (fun step => .str (text step.value))))]

def stateFormat : Int := 1

/-- What `save` hands to `write_private_json`. -/
structure StateData (prim : Primitives) where
  address : Option Text
  saved : Text
  enrollment : Enrollment prim

namespace StateData

variable {prim : Primitives}

def dict (data : StateData prim) : List (Text × Value) :=
  [(text "format", .int stateFormat),
    (text "address", data.address.elim .null .str),
    (text "saved", .str data.saved),
    (text "enrollment", .object data.enrollment.toDict)]

/-- No number in it has a fraction. -/
def written (data : StateData prim) : Text :=
  write .indented (fun _ => []) 0 (.object data.dict) ++ [code '\n']

/-- The bytes of the file. -/
def file (data : StateData prim) : Bytes := encodeAsciiText data.written

/-- The texts that JSON gives back. -/
structure Legible (data : StateData prim) : Prop where
  address : ∀ address ∈ data.address, Unpaired address
  saved : Unpaired data.saved

end StateData

/-- The name `path_for` gives: a hash, not the device id itself. -/
def stateName (sha256 : Bytes → Bytes) (deviceId : Bytes) : Text :=
  text "lock-" ++ (hexText (sha256 deviceId)).take 16 ++ text ".json"

theorem stateName_json (sha256 : Bytes → Bytes) (deviceId : Bytes) :
    (text ".json").isSuffixOf (stateName sha256 deviceId) = true :=
  List.isSuffixOf_iff_suffix.mpr ⟨text "lock-" ++ (hexText (sha256 deviceId)).take 16, rfl⟩

/-! Reading the fields back. -/

theorem isAsciiSpace_hexDigit {n : Nat} (h : n < 16) : isAsciiSpace (hexDigit n) = false := by
  interval_cases n <;> decide

theorem bytesFromHex_hexText (b : Bytes) : bytesFromHex (hexText b) = some b := by
  induction b with
  | nil => rfl
  | cons x b ih =>
    have hx := x.toNat_lt
    have hhigh : x.toNat / 16 < 16 := by omega
    have hlow : x.toNat % 16 < 16 := by omega
    have hbyte : UInt8.ofNat (16 * (x.toNat / 16) + x.toNat % 16) = x := by
      rw [Nat.div_add_mod]
      exact UInt8.ofNat_toNat
    have htext : hexText (x :: b) = hexDigit (x.toNat / 16) :: hexDigit (x.toNat % 16) :: hexText b := rfl
    rw [htext, bytesFromHex, if_neg (by simp [isAsciiSpace_hexDigit hhigh])]
    simp only [hexValue_hexDigit hhigh, hexValue_hexDigit hlow, Option.bind_some, ih, Option.map_some, hbyte]

theorem hexField_hexText {fields : List (Text × Value)} {key : String} {b : Bytes}
    (h : get fields (text key) = .str (hexText b)) : hexField fields key = .ok b := by
  simp [hexField, h, bytesFromHex_hexText]

theorem optionalHexField_optionalHex {fields : List (Text × Value)} {key : String} {b : Option Bytes}
    (h : get fields (text key) = optionalHex b) : optionalHexField fields key = .ok b := by
  cases b with
  | none => simp [optionalHexField, h, optionalHex]
  | some b => simp [optionalHexField, h, optionalHex, hexField_hexText h, Except.map]

theorem stepOf_value (step : EnrollmentStep) : stepOf (.str (text step.value)) = some step := by
  cases step <;> decide

theorem mapM_stepOf (steps : List EnrollmentStep) :
    (steps.map (fun step => Value.str (text step.value))).mapM stepOf = some steps := by
  induction steps with
  | nil => rfl
  | cons step steps ih => simp [stepOf_value, ih]

theorem toFinset_filter_all (completed : Finset EnrollmentStep) :
    (EnrollmentStep.all.filter (fun step => decide (step ∈ completed))).toFinset = completed := by
  ext step
  simp [EnrollmentStep.mem_all step]

theorem nameOf_text (s : String) : nameOf (text s) = s := by
  have hchar : ∀ c : Char, (if (CodePoint.ofChar c).val.isValidChar then Char.ofNat (CodePoint.ofChar c).val
      else '\ufffd') = c := by
    intro c
    have hvalid : (CodePoint.ofChar c).val.isValidChar := c.valid
    rw [if_pos hvalid]
    exact Char.ofNat_toNat c
  have hchars : s.toList.map (fun c => if (CodePoint.ofChar c).val.isValidChar then
      Char.ofNat (CodePoint.ofChar c).val else '\ufffd') = s.toList :=
    List.map_congr_left (fun c _ => hchar c) |>.trans (List.map_id _)
  rw [nameOf, text, List.map_map]
  exact (congrArg String.ofList hchars).trans (String.ofList_toList)

section

variable {prim : Primitives}

theorem enrollmentFromDict_toDict (e : Enrollment prim) :
    enrollmentFromDict prim (.object e.toDict) = .ok e := by
  have hformat : checkFormat e.toDict = .ok () := rfl
  have hcompleted : completedSteps e.toDict = .ok e.completed := by
    have hlist : get e.toDict (text "completed") = .list ((EnrollmentStep.all.filter
        (fun step => decide (step ∈ e.completed))).map (fun step => .str (text step.value))) := rfl
    simp only [completedSteps, hlist, mapM_stepOf, toFinset_filter_all]
  have hname : nameField e.toDict = .ok e.name := by
    have hstr : get e.toDict (text "name") = .str (text e.name) := rfl
    simp only [nameField, hstr, nameOf_text]
  have huser : userIdField e.toDict = .ok e.userId := rfl
  have hdevice : hexField e.toDict "device_id" = .ok e.deviceId := hexField_hexText rfl
  have howner : hexField e.toDict "owner_key" = .ok e.ownerKey := hexField_hexText rfl
  have hserver : hexField e.toDict "server_private_key" = .ok e.serverPrivateKey := hexField_hexText rfl
  have hlockServer : optionalHexField e.toDict "lock_server_public_key" = .ok e.lockServerPublicKey :=
    optionalHexField_optionalHex rfl
  have hupdate : optionalHexField e.toDict "update_private_key" = .ok e.updatePrivateKey :=
    optionalHexField_optionalHex rfl
  have hlockUpdate : optionalHexField e.toDict "lock_update_public_key" = .ok e.lockUpdatePublicKey :=
    optionalHexField_optionalHex rfl
  have hvalid : constructed prim e.toEnrollmentFields = .ok e := by
    rw [constructed, Enrollment.ofFields_ok e.valid]
  simp only [enrollmentFromDict, hformat, hcompleted, hname, huser, hdevice, howner, hserver, hlockServer,
    hupdate, hlockUpdate, ok_bind]
  exact hvalid

end

/-! Reading a whole file back. -/

theorem unpaired_of_low {t : Text} (h : ∀ c ∈ t, isHighSurrogate c = false) : Unpaired t := by
  induction t with
  | nil => trivial
  | cons c t ih =>
    cases t with
    | nil => trivial
    | cons d t =>
      have hc := h c List.mem_cons_self
      refine ⟨?_, ih (fun e he => h e (List.mem_cons_of_mem _ he))⟩
      rintro ⟨hhigh, -⟩
      rw [hc] at hhigh
      cases hhigh

theorem unpaired_ascii {t : Text} (h : t.isAscii = true) : Unpaired t := by
  refine unpaired_of_low (fun c hc => ?_)
  have hlow : c.val < 128 := isAscii_iff.mp h c hc
  simp only [isHighSurrogate, Bool.and_eq_false_iff, decide_eq_false_iff_not]
  omega

theorem unpaired_text (s : String) : Unpaired (text s) := by
  refine unpaired_of_low (fun c hc => ?_)
  obtain ⟨d, -, rfl⟩ := List.mem_map.mp hc
  have hvalid : d.toNat < 0xd800 ∨ 0xdfff < d.toNat ∧ d.toNat < 0x110000 := d.valid
  have hval : (CodePoint.ofChar d).val = d.toNat := rfl
  simp only [isHighSurrogate, hval, Bool.and_eq_false_iff, decide_eq_false_iff_not]
  omega

theorem hexText_ascii (b : Bytes) : (hexText b).isAscii = true := by
  refine isAscii_iff.mpr (fun c hc => ?_)
  obtain ⟨x, -, hx⟩ := List.mem_flatMap.mp hc
  have hbyte := x.toNat_lt
  simp only [List.mem_cons, List.not_mem_nil, or_false] at hx
  have hascii : ∀ n, n < 16 → (hexDigit n).val < 128 := fun n hn => (hexDigit_printable hn).2.trans (by decide)
  rcases hx with rfl | rfl
  · exact hascii _ (by omega)
  · exact hascii _ (by omega)

theorem fits_hexText (depth : Nat) (b : Bytes) : Fits depth (.str (hexText b)) := by
  cases depth <;> exact unpaired_ascii (hexText_ascii b)

theorem fits_optionalHex (depth : Nat) (b : Option Bytes) : Fits depth (optionalHex b) := by
  cases b with
  | none => cases depth <;> trivial
  | some b => exact fits_hexText depth b

theorem fits_text (depth : Nat) (s : String) : Fits depth (.str (text s)) := by
  cases depth <;> exact unpaired_text s

theorem fits_int (depth : Nat) {n : Int} (h : n.natAbs < 10 ^ maxStrDigits) : Fits depth (.int n) := by
  cases depth <;> exact h

theorem short_int {n : Int} (h : n.natAbs < 1000) : n.natAbs < 10 ^ maxStrDigits := by
  have hpow : 10 ^ 3 ≤ 10 ^ maxStrDigits := Nat.pow_le_pow_right (by decide) (by decide)
  omega

section

variable {prim : Primitives}

theorem fits_toDict (e : Enrollment prim) (depth : Nat) : Fits (depth + 2) (.object e.toDict) := by
  have huser : e.userId.natAbs < 1000 := by
    have hrange := e.valid.userId
    omega
  have hcompleted : ∀ steps : List EnrollmentStep,
      Fits (depth + 1) (.list (steps.map (fun step => .str (text step.value)))) := by
    intro steps v hv
    obtain ⟨step, -, rfl⟩ := List.mem_map.mp hv
    exact fits_text depth step.value
  intro f hf
  simp only [EnrollmentFields.toDict, List.mem_cons, List.not_mem_nil, or_false] at hf
  rcases hf with rfl | rfl | rfl | rfl | rfl | rfl | rfl | rfl | rfl | rfl
  · exact ⟨unpaired_text _, fits_int _ (short_int (by decide))⟩
  · exact ⟨unpaired_text _, fits_int _ (short_int huser)⟩
  · exact ⟨unpaired_text _, fits_hexText _ _⟩
  · exact ⟨unpaired_text _, fits_hexText _ _⟩
  · exact ⟨unpaired_text _, fits_hexText _ _⟩
  · exact ⟨unpaired_text _, fits_optionalHex _ _⟩
  · exact ⟨unpaired_text _, fits_optionalHex _ _⟩
  · exact ⟨unpaired_text _, fits_optionalHex _ _⟩
  · exact ⟨unpaired_text _, fits_text _ _⟩
  · exact ⟨unpaired_text _, hcompleted _⟩

theorem StateData.fits {data : StateData prim} (h : data.Legible) (depth : Nat) :
    Fits (depth + 3) (.object data.dict) := by
  have haddress : Fits (depth + 2) (data.address.elim .null .str) := by
    cases ha : data.address with
    | none => trivial
    | some address => exact h.address address ha
  intro f hf
  simp only [StateData.dict, List.mem_cons, List.not_mem_nil, or_false] at hf
  rcases hf with rfl | rfl | rfl | rfl
  · exact ⟨unpaired_text _, fits_int _ (short_int (by decide))⟩
  · exact ⟨unpaired_text _, haddress⟩
  · exact ⟨unpaired_text _, h.saved⟩
  · exact ⟨unpaired_text _, fits_toDict data.enrollment depth⟩

theorem load_file {data : StateData prim} (h : data.Legible) {maxDepth : Nat} (hdepth : 3 ≤ maxDepth)
    (path : Text) : load prim maxDepth path (.ok data.file) = .ok ⟨path, data.enrollment, data.address⟩ := by
  obtain ⟨depth, rfl⟩ := Nat.exists_eq_add_of_le' hdepth
  have hlegible : Json.Legible (fun _ => []) (depth + 3) (.object data.dict) := (StateData.fits h depth).legible
  have hascii : data.written.isAscii = true := by
    have hbreak : (code '\n').val < 128 := by decide
    refine isAscii_iff.mpr ?_
    rw [StateData.written, List.forall_mem_append, List.forall_mem_singleton]
    exact ⟨write_ascii (by simp) hlegible, hbreak⟩
  have htext : decodeUtf8 data.file = some data.written := decodeUtf8_encodeAsciiText hascii
  have hread : loads (depth + 3) data.written = .ok (.object data.dict) :=
    loads_write hlegible (newline_blank 0)
  have hformat : (get data.dict (text "format")).isTwoPow 0 = true := rfl
  have hstored : get data.dict (text "enrollment") = .object data.enrollment.toDict := rfl
  have haddress : get data.dict (text "address") = data.address.elim .null .str := rfl
  have htruthy : (Value.object data.enrollment.toDict).truthy = true := rfl
  simp only [load, htext, hread, readState, hformat, hstored, haddress, htruthy, if_true,
    enrollmentFromDict_toDict]
  cases data.address <;> rfl

end

end OnestiLock
