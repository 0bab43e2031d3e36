import Mathlib.Tactic.SplitIfs
import OnestiLock.Events
import OnestiLock.Redact

/-! Which slots a lock takes (`pin_rules.py`), and the two ways to write a PIN code:
the set_pin form of the options flow and the set_pin service. -/

namespace OnestiLock

open Python

/-- `isinstance(value, int)`, which a `bool` is. -/
def ReportedValue.asInt : ReportedValue → Option Int
  | flag value => some (if value then 1 else 0)
  | integer value => some value
  | other => none

def maxSlots : Int := 1000

def numUserSlots : Nat := 10

/-- `caps.get("num_pin_users")`, where it is an `int`. -/
def numPinUsers (capabilities : Option ReportedCapabilities) : Option Int :=
  ((capabilities.getD (fun _ => none)) (text "num_pin_users")).bind ReportedValue.asInt

def maxUserSlot (capabilities : Option ReportedCapabilities) : Int :=
  match numPinUsers capabilities with
  | some num => if slotFirstUser < num ∧ num ≤ maxSlots then num - 1 else maxSlots - 1
  | none => maxSlots - 1

/-! The two paths, up to the coordinator's `set_pin`. -/

abbrev Strings := String → Option String

/-- In every translation `str.format` finds the fields `{slot}` and `{name}`. -/
def formatSlotLabel (strings : Strings) (slot : Int) (name : String) : String :=
  (((strings "slot_label").getD "Slot {slot}: {name}").replace "{slot}" (toString slot)).replace "{name}" name

def storedName (options : Options) (slot : Int) : String :=
  (((options.slots.getD (fun _ => none)) (slotKey slot)).bind StoredSlot.name).getD ""

/-- The slots of the set_pin form, each with its label. -/
def slotOptions (strings : Strings) (options : Options) : List (String × String) :=
  (List.range numUserSlots).map (fun (k : Nat) =>
    let slot := firstUserSlot options + (k : Int)
    let name := storedName options slot
    let vacant := (strings "slot_vacant").getD "Vacant"
    (slotKey slot, formatSlotLabel strings slot (if name = "" then vacant else name)))

/-- `int` of digits; a `ValueError` of anything the form does not offer. -/
def slotOfKey (key : String) : Option Int :=
  if key.toList ≠ [] ∧ key.toList.all Char.isDigit = true then some (Nat.ofDigitChars 10 key.toList 0) else none

structure SetPinInput where
  slot : String
  name : String
  code : String
  deriving DecidableEq, Repr

/-- What becomes of a request to set a PIN code. -/
inductive SetPinAnswer
  | refusedBySchema
  | raised (name : String)
  | invalidSlot (low high : Int)
  | invalidPin (low high : Int)
  | write (slot : Int) (name code : String)
  deriving DecidableEq, Repr

/-- A submission of the form: its schema, `async_step_set_pin`, and the start of
`async_step_set_pin_progress`. -/
def submitSetPin (digits : DigitTable) (strings : Strings) (options : Options)
    (capabilities : Option ReportedCapabilities) (input : SetPinInput) : SetPinAnswer :=
  if input.slot ∈ (slotOptions strings options).map Prod.fst then
    if isValidPin digits (text input.code) capabilities then
      match slotOfKey input.slot with
      | some slot => .write slot input.name input.code
      | none => .raised "ValueError"
    else .invalidPin (pinLengthRange capabilities).1 (pinLengthRange capabilities).2
  else .refusedBySchema

/-- `handle_set_pin`, of the lock the call is for. -/
def handleSetPin (digits : DigitTable) (options : Options) (capabilities : Option ReportedCapabilities)
    (slot : Int) (name code : String) : SetPinAnswer :=
  let first := firstUserSlot options
  let maxSlot := maxUserSlot capabilities
  if first ≤ slot ∧ slot ≤ maxSlot then
    if isValidPin digits (text code) capabilities then .write slot name code
    else .invalidPin (pinLengthRange capabilities).1 (pinLengthRange capabilities).2
  else .invalidSlot first maxSlot

/-! Slots as keys. -/

theorem slotOfKey_slotKey {slot : Int} (h : 0 ≤ slot) : slotOfKey (slotKey slot) = some slot := by
  obtain ⟨n, rfl⟩ := Int.eq_ofNat_of_zero_le h
  have hlist : (slotKey (n : Int)).toList = Nat.toDigits 10 n := Nat.toList_repr
  have hne : Nat.toDigits 10 n ≠ [] := Nat.toDigits_ne_nil
  have hdigit : ∀ c ∈ Nat.toDigits 10 n, c.isDigit = true :=
    fun c hc => Nat.isDigit_of_mem_toDigits (by decide) (by decide) hc
  rw [slotOfKey, hlist, if_pos ⟨hne, List.all_eq_true.mpr hdigit⟩, Nat.ofDigitChars_ten_toDigits]

theorem mem_slotOptions {strings : Strings} {options : Options} {key : String} :
    key ∈ (slotOptions strings options).map Prod.fst ↔
      ∃ slot, key = slotKey slot ∧ firstUserSlot options ≤ slot ∧ slot < firstUserSlot options + numUserSlots := by
  simp only [slotOptions, List.map_map, List.mem_map, List.mem_range, Function.comp_apply]
  constructor
  · rintro ⟨k, hk, rfl⟩
    exact ⟨firstUserSlot options + k, rfl, by omega, by omega⟩
  · rintro ⟨slot, rfl, hlow, hhigh⟩
    have hslot : firstUserSlot options + ((slot - firstUserSlot options).toNat : Int) = slot := by omega
    exact ⟨(slot - firstUserSlot options).toNat, by omega, by rw [hslot]⟩

theorem slotFirstUser_le_maxUserSlot (capabilities : Option ReportedCapabilities) :
    slotFirstUser ≤ maxUserSlot capabilities := by
  unfold maxUserSlot
  split
  · simp only [slotFirstUser, maxSlots]
    split_ifs <;> omega
  · decide

/-! When the paths agree. -/

section

variable {digits : DigitTable} {strings : Strings} {options : Options}
    {capabilities : Option ReportedCapabilities}

/-- A count of PIN users that is trusted and leaves out a slot of the form. -/
def ReportsTooFew (options : Options) (capabilities : Option ReportedCapabilities) : Prop :=
  ∃ num, numPinUsers capabilities = some num ∧ slotFirstUser < num ∧
    num < firstUserSlot options + numUserSlots

theorem maxUserSlot_covers_iff :
    (∀ slot, firstUserSlot options ≤ slot → slot < firstUserSlot options + numUserSlots →
      slot ≤ maxUserSlot capabilities) ↔ ¬ ReportsTooFew options capabilities := by
  obtain ⟨hlow, hhigh⟩ := firstUserSlot_range options
  simp only [reservedSlotsMin, slotFirstUser] at hlow hhigh
  constructor
  · rintro h ⟨num, hnum, hfloor, hfew⟩
    have hle := h num (by simp only [slotFirstUser] at hfloor; omega) hfew
    have hmax : maxUserSlot capabilities = num - 1 := by
      rw [maxUserSlot, hnum]
      exact if_pos ⟨hfloor, by simp only [numUserSlots, maxSlots] at hfew ⊢; omega⟩
    omega
  · intro h slot _ hslot
    simp only [numUserSlots] at hslot
    unfold maxUserSlot
    split
    · rename_i num hnum
      have henough : ¬ (slotFirstUser < num ∧ num < firstUserSlot options + numUserSlots) :=
        fun hfew => h ⟨num, hnum, hfew⟩
      simp only [slotFirstUser, numUserSlots, maxSlots] at henough ⊢
      split_ifs <;> omega
    · simp only [maxSlots]
      omega

/-- What the form offers and lets through, the service takes. -/
structure PathsAgree (digits : DigitTable) (strings : Strings) (options : Options)
    (capabilities : Option ReportedCapabilities) : Prop where
  slots : ∀ key ∈ (slotOptions strings options).map Prod.fst, ∃ slot, slotOfKey key = some slot ∧
    ∀ name code low high, handleSetPin digits options capabilities slot name code ≠ .invalidSlot low high
  codes : ∀ code, (∃ key name slot, submitSetPin digits strings options capabilities ⟨key, name, code⟩ =
      .write slot name code) ↔
    ∃ slot name, handleSetPin digits options capabilities slot name code = .write slot name code
  writes : ∀ input slot name code,
    submitSetPin digits strings options capabilities input = .write slot name code →
      handleSetPin digits options capabilities slot name code = .write slot name code

theorem handleSetPin_slot {slot : Int} :
    (∀ name code low high, handleSetPin digits options capabilities slot name code ≠ .invalidSlot low high) ↔
      firstUserSlot options ≤ slot ∧ slot ≤ maxUserSlot capabilities := by
  constructor
  · intro h
    by_contra hout
    exact h "" "" _ _ (if_neg hout)
  · intro hin name code low high
    rw [handleSetPin, if_pos hin]
    split <;> simp

theorem handleSetPin_write {slot : Int} {name code : String} :
    handleSetPin digits options capabilities slot name code = .write slot name code ↔
      (firstUserSlot options ≤ slot ∧ slot ≤ maxUserSlot capabilities) ∧
        isValidPin digits (text code) capabilities = true := by
  unfold handleSetPin
  by_cases hin : firstUserSlot options ≤ slot ∧ slot ≤ maxUserSlot capabilities
  · by_cases hpin : isValidPin digits (text code) capabilities = true <;> simp [hin, hpin]
  · simp [hin]

theorem submitSetPin_write {input : SetPinInput} {slot : Int} {name code : String} :
    submitSetPin digits strings options capabilities input = .write slot name code ↔
      (input.slot = slotKey slot ∧ firstUserSlot options ≤ slot ∧ slot < firstUserSlot options + numUserSlots) ∧
        isValidPin digits (text code) capabilities = true ∧ input.name = name ∧ input.code = code := by
  have hfirst := (firstUserSlot_range options).1
  simp only [reservedSlotsMin] at hfirst
  unfold submitSetPin
  by_cases hmem : input.slot ∈ (slotOptions strings options).map Prod.fst
  · obtain ⟨found, hkey, hlow, hhigh⟩ := mem_slotOptions.mp hmem
    have hparse : slotOfKey input.slot = some found := by rw [hkey, slotOfKey_slotKey (by omega)]
    by_cases hpin : isValidPin digits (text input.code) capabilities = true
    · simp only [hmem, if_true, hpin, hparse, SetPinAnswer.write.injEq]
      constructor
      · rintro ⟨rfl, rfl, rfl⟩
        exact ⟨⟨hkey, hlow, hhigh⟩, hpin, rfl, rfl⟩
      · rintro ⟨⟨hslot, -, -⟩, -, rfl, rfl⟩
        exact ⟨slotKey_injective (hkey.symm.trans hslot), rfl, rfl⟩
    · simp only [hmem, if_true, hpin]
      refine iff_of_false (by simp) ?_
      rintro ⟨-, hvalid, -, rfl⟩
      exact hpin hvalid
  · simp only [hmem, if_false]
    refine iff_of_false (by simp) ?_
    rintro ⟨⟨hslot, hlow, hhigh⟩, -⟩
    exact hmem (mem_slotOptions.mpr ⟨slot, hslot, hlow, hhigh⟩)

theorem codes_agree (code : String) :
    (∃ key name slot, submitSetPin digits strings options capabilities ⟨key, name, code⟩ =
      .write slot name code) ↔
    ∃ slot name, handleSetPin digits options capabilities slot name code = .write slot name code := by
  simp only [submitSetPin_write, handleSetPin_write]
  obtain ⟨-, hfirst⟩ := firstUserSlot_range options
  have hmax := slotFirstUser_le_maxUserSlot capabilities
  constructor
  · rintro ⟨key, name, slot, -, hpin, -⟩
    exact ⟨firstUserSlot options, "", ⟨by omega, by omega⟩, hpin⟩
  · rintro ⟨slot, name, -, hpin⟩
    have hslot : firstUserSlot options < firstUserSlot options + numUserSlots := by
      simp only [numUserSlots]
      omega
    exact ⟨_, name, firstUserSlot options, ⟨rfl, by omega, hslot⟩, hpin, trivial, trivial⟩

end

/-- The paths agree unless the lock reports too few PIN users for the ten slots of the form. -/
theorem pathsAgree_iff (digits : DigitTable) (strings : Strings) (options : Options)
    (capabilities : Option ReportedCapabilities) :
    PathsAgree digits strings options capabilities ↔ ¬ ReportsTooFew options capabilities := by
  have hfirst := (firstUserSlot_range options).1
  simp only [reservedSlotsMin] at hfirst
  rw [← maxUserSlot_covers_iff]
  constructor
  · intro h slot hlow hhigh
    obtain ⟨found, hparse, hslot⟩ := h.slots (slotKey slot) (mem_slotOptions.mpr ⟨slot, rfl, hlow, hhigh⟩)
    rw [slotOfKey_slotKey (by omega)] at hparse
    obtain rfl := Option.some.inj hparse
    exact (handleSetPin_slot.mp hslot).2
  · intro h
    refine ⟨?_, codes_agree, ?_⟩
    · intro key hkey
      obtain ⟨slot, rfl, hlow, hhigh⟩ := mem_slotOptions.mp hkey
      exact ⟨slot, slotOfKey_slotKey (by omega), handleSetPin_slot.mpr ⟨hlow, h slot hlow hhigh⟩⟩
    · intro input slot name code hwrite
      obtain ⟨⟨-, hlow, hhigh⟩, hpin, -⟩ := submitSetPin_write.mp hwrite
      exact handleSetPin_write.mpr ⟨⟨hlow, h slot hlow hhigh⟩, hpin⟩

/-- A lock that reports ten PIN users: the form writes to slot 10, and the service refuses it. -/
theorem paths_disagree : let options : Options := ⟨none, fun _ => none⟩
    let capabilities : Option ReportedCapabilities :=
      some (fun key => if key = text "num_pin_users" then some (.integer 10) else none)
    submitSetPin .asciiOnly (fun _ => none) options capabilities ⟨"10", "Kari", "1234"⟩ =
      .write 10 "Kari" "1234" ∧
      handleSetPin .asciiOnly options capabilities 10 "Kari" "1234" = .invalidSlot 3 9 ∧
      ¬ PathsAgree .asciiOnly (fun _ => none) options capabilities := by
  intro options capabilities
  have hwrite : submitSetPin .asciiOnly (fun _ => none) options capabilities ⟨"10", "Kari", "1234"⟩ =
      .write 10 "Kari" "1234" := by
    refine submitSetPin_write.mpr ⟨⟨?_, ?_, ?_⟩, ?_, rfl, rfl⟩ <;> decide +kernel
  have hrefused : handleSetPin .asciiOnly options capabilities 10 "Kari" "1234" = .invalidSlot 3 9 := by decide +kernel
  refine ⟨hwrite, hrefused, fun h => ?_⟩
  have hsame := h.writes _ _ _ _ hwrite
  rw [hrefused] at hsame
  cases hsame

/-! What the rules leave to set, whatever is reported and stored. -/

theorem zeros_valid (digits : DigitTable) {capabilities : Option ReportedCapabilities} {length : Nat}
    (hlow : (pinLengthRange capabilities).1 ≤ length) (hhigh : (length : Int) ≤ (pinLengthRange capabilities).2) :
    isValidPin digits (List.replicate length (CodePoint.ofChar '0')) capabilities = true := by
  have hsane := (pinLengthRange_bounds capabilities).1
  simp only [pinLengthSaneMin] at hsane
  have hdigit : digits.isDigit (CodePoint.ofChar '0') = true := by
    rw [digits.digit_ascii _ (by decide)]
    decide
  have hascii : Text.isAscii (List.replicate length (CodePoint.ofChar '0')) = true := by
    unfold Text.isAscii
    rw [List.all_eq_true]
    intro c hc
    rw [List.eq_of_mem_replicate hc]
    decide
  have hall : (List.replicate length (CodePoint.ofChar '0')).all digits.isDigit = true := by
    rw [List.all_eq_true]
    intro c hc
    rw [List.eq_of_mem_replicate hc]
    exact hdigit
  have hne : (List.replicate length (CodePoint.ofChar '0')).isEmpty = false := by
    rw [List.isEmpty_eq_false_iff, Ne, List.replicate_eq_nil_iff]
    omega
  simp only [isValidPin, hascii, hall, hne, List.length_replicate]
  simp [hlow, hhigh]

theorem maxUserSlot_lt (capabilities : Option ReportedCapabilities) : maxUserSlot capabilities < maxSlots := by
  unfold maxUserSlot
  split
  · split_ifs
    · omega
    · decide
  · decide

theorem text_zeros (length : Nat) :
    text (String.ofList (List.replicate length '0')) = List.replicate length (CodePoint.ofChar '0') := by
  unfold text
  rw [String.toList_ofList, List.map_replicate]

theorem exists_zeros_valid (digits : DigitTable) (capabilities : Option ReportedCapabilities) : ∃ length : Nat,
    isValidPin digits (List.replicate length (CodePoint.ofChar '0')) capabilities = true := by
  obtain ⟨hmin, hrange, -⟩ := pinLengthRange_bounds capabilities
  simp only [pinLengthSaneMin] at hmin
  have hlength : ((pinLengthRange capabilities).1.toNat : Int) = (pinLengthRange capabilities).1 := by omega
  exact ⟨(pinLengthRange capabilities).1.toNat, zeros_valid digits (by omega) (by omega)⟩

theorem exists_writable (digits : DigitTable) (options : Options) (capabilities : Option ReportedCapabilities) :
    ∃ slot, checkWritable options slot = .ok () ∧ ∃ code, ∀ name,
      handleSetPin digits options capabilities slot name code = .write slot name code := by
  have hle := (firstUserSlot_range options).2.trans (slotFirstUser_le_maxUserSlot capabilities)
  obtain ⟨length, hvalid⟩ := exists_zeros_valid digits capabilities
  refine ⟨firstUserSlot options, checkWritable_ok.mpr (Int.le_refl _),
    String.ofList (List.replicate length '0'), fun name => ?_⟩
  refine handleSetPin_write.mpr ⟨⟨Int.le_refl _, hle⟩, ?_⟩
  rw [text_zeros]
  exact hvalid

/-- The rules always leave something to set: a code for every capability map, and a slot
for every map and every stored setting, which is never slot 0. -/
theorem pin_rules_leave_choice (digits : DigitTable) :
    (∀ capabilities : Option ReportedCapabilities,
      ((pinLengthSaneMin : Int) ≤ (pinLengthRange capabilities).1 ∧
        (pinLengthRange capabilities).1 ≤ (pinLengthRange capabilities).2 ∧
        (pinLengthRange capabilities).2 ≤ pinLengthSaneMax) ∧
      (∀ low high, capabilities.getD (fun _ => none) (text "min_pin_length") = some (.integer low) →
        capabilities.getD (fun _ => none) (text "max_pin_length") = some (.integer high) →
        (pinLengthSaneMin : Int) ≤ low → low ≤ high → high ≤ pinLengthSaneMax →
        pinLengthRange capabilities = (low, high)) ∧
      ((leftOver capabilities).2 < (leftOver capabilities).1 → pinLengthRange capabilities = pinLengthFallback) ∧
      (∃ code : Text, (∀ c ∈ code, 48 ≤ c.val ∧ c.val ≤ 57) ∧ isValidPin digits code capabilities = true) ∧
      ∀ code, isValidPin digits code capabilities = true →
        pinLengthSaneMin ≤ code.length ∧ code.length ≤ pinLengthSaneMax) ∧
    ∀ (options : Options) (capabilities : Option ReportedCapabilities),
      (reservedSlotsMin ≤ firstUserSlot options ∧ firstUserSlot options ≤ maxUserSlot capabilities ∧
        maxUserSlot capabilities < maxSlots) ∧
      (∀ slot ≤ 0, checkWritable options slot ≠ .ok () ∧ ∀ name code, handleSetPin digits options capabilities
        slot name code = .invalidSlot (firstUserSlot options) (maxUserSlot capabilities)) ∧
      ∃ slot, checkWritable options slot = .ok () ∧ ∃ code, ∀ name,
        handleSetPin digits options capabilities slot name code = .write slot name code := by
  constructor
  · intro capabilities
    refine ⟨pinLengthRange_bounds capabilities, ?_, ?_, ?_, fun code hvalid => isValidPin_length hvalid⟩
    · intro low high hlow hhigh hmin hle hmax
      have hleft := leftOver_of_sane hlow hhigh ⟨hmin, by omega⟩ ⟨by omega, hmax⟩
      rw [pinLengthRange_eq, hleft, if_neg (by simpa using hle)]
    · intro hcontradict
      rw [pinLengthRange_eq, if_pos hcontradict]
    · obtain ⟨length, hvalid⟩ := exists_zeros_valid digits capabilities
      refine ⟨_, ?_, hvalid⟩
      intro c hc
      rw [List.eq_of_mem_replicate hc]
      decide
  · intro options capabilities
    obtain ⟨hmin, hfirst⟩ := firstUserSlot_range options
    have hle := hfirst.trans (slotFirstUser_le_maxUserSlot capabilities)
    refine ⟨⟨hmin, hle, maxUserSlot_lt capabilities⟩, ?_, exists_writable digits options capabilities⟩
    intro slot hslot
    have hbelow : slot < firstUserSlot options := by
      simp only [reservedSlotsMin] at hmin
      omega
    refine ⟨fun hok => absurd (checkWritable_ok.mp hok) (by omega), fun name code => ?_⟩
    exact if_neg (fun hin => absurd hin.1 (by omega))

end OnestiLock
