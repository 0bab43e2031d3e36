import OnestiLock.RunMasking
import OnestiLock.Text

/-! Which PIN codes a lock takes (`pin_rules.py`), and the masking of text that
may quote one (`redact.py`). -/

namespace OnestiLock

open Python

def pinLengthFallback : Int × Int := (4, 8)
def pinLengthSaneMin : Nat := 4
def pinLengthSaneMax : Nat := 20

/-- A value of the capability map: a `bool`, an `int`, or anything else. -/
inductive ReportedValue
  | flag (value : Bool)
  | integer (value : Int)
  | other
  deriving DecidableEq, Repr

abbrev ReportedCapabilities := Text → Option ReportedValue

def reportedLength : Option ReportedValue → Option Int
  | some (.integer value) =>
    if pinLengthSaneMin ≤ value ∧ value ≤ pinLengthSaneMax then some value else none
  | some (.flag _) | some .other | none => none

/-- `none` is `None`, which reads as an empty map. -/
def pinLengthRange (capabilities : Option ReportedCapabilities) : Int × Int :=
  let caps := capabilities.getD (fun _ => none)
  let low := (reportedLength (caps (text "min_pin_length"))).getD pinLengthFallback.1
  let high := (reportedLength (caps (text "max_pin_length"))).getD pinLengthFallback.2
  if high < low then pinLengthFallback else (low, high)

/-- What Unicode calls a decimal, and what `str.isdigit` takes for a digit.
In ASCII both are the ten digits. -/
structure DigitTable where
  isDecimal : CodePoint → Bool
  isDigit : CodePoint → Bool
  decimal_ascii : ∀ c, c.val < 128 → isDecimal c = decide (48 ≤ c.val ∧ c.val ≤ 57)
  digit_ascii : ∀ c, c.val < 128 → isDigit c = decide (48 ≤ c.val ∧ c.val ≤ 57)

def isValidPin (digits : DigitTable) (code : Text) (capabilities : Option ReportedCapabilities) : Bool :=
  let range := pinLengthRange capabilities
  code.isAscii && (!code.isEmpty && code.all digits.isDigit) &&
    (decide (range.1 ≤ code.length) && decide (code.length ≤ range.2))

def mask : Text := text "****"

def redactDigits (digits : DigitTable) (t : Text) : Text :=
  RunMasking.maskRuns digits.isDecimal pinLengthSaneMin mask t

/-- ASCII alone, as in what follows. -/
def DigitTable.asciiOnly : DigitTable :=
  ⟨fun c => decide (48 ≤ c.val ∧ c.val ≤ 57), fun c => decide (48 ≤ c.val ∧ c.val ≤ 57),
    fun _ _ => rfl, fun _ _ => rfl⟩

example : redactDigits .asciiOnly (text "code 12345 for slot 803") = text "code **** for slot 803" := by
  decide

theorem reportedLength_eq_some {value : Option ReportedValue} {length : Int} :
    reportedLength value = some length ↔ value = some (.integer length) ∧
      (pinLengthSaneMin : Int) ≤ length ∧ length ≤ pinLengthSaneMax := by
  unfold reportedLength
  split
  · rename_i reported
    split_ifs with hsane
    · simp only [Option.some.injEq, ReportedValue.integer.injEq]
      constructor
      · rintro rfl
        exact ⟨rfl, hsane⟩
      · exact fun h => h.1
    · refine iff_of_false nofun ?_
      rintro ⟨heq, hrange⟩
      cases heq
      exact hsane hrange
  · simp
  · simp
  · simp

theorem reportedLength_getD {fallback : Int} (value : Option ReportedValue)
    (h : (pinLengthSaneMin : Int) ≤ fallback ∧ fallback ≤ pinLengthSaneMax) :
    (pinLengthSaneMin : Int) ≤ (reportedLength value).getD fallback ∧
      (reportedLength value).getD fallback ≤ pinLengthSaneMax := by
  cases hvalue : reportedLength value with
  | none => exact h
  | some length => exact (reportedLength_eq_some.mp hvalue).2

/-- The bounds that are left over: each as reported where that is sane, else its fallback. -/
def leftOver (capabilities : Option ReportedCapabilities) : Int × Int :=
  let caps := capabilities.getD (fun _ => none)
  ((reportedLength (caps (text "min_pin_length"))).getD pinLengthFallback.1,
    (reportedLength (caps (text "max_pin_length"))).getD pinLengthFallback.2)

theorem pinLengthRange_eq (capabilities : Option ReportedCapabilities) :
    pinLengthRange capabilities =
      if (leftOver capabilities).2 < (leftOver capabilities).1 then pinLengthFallback else leftOver capabilities :=
  rfl

theorem leftOver_of_sane {capabilities : Option ReportedCapabilities} {low high : Int}
    (hlow : capabilities.getD (fun _ => none) (text "min_pin_length") = some (.integer low))
    (hhigh : capabilities.getD (fun _ => none) (text "max_pin_length") = some (.integer high))
    (hmin : (pinLengthSaneMin : Int) ≤ low ∧ low ≤ pinLengthSaneMax)
    (hmax : (pinLengthSaneMin : Int) ≤ high ∧ high ≤ pinLengthSaneMax) : leftOver capabilities = (low, high) := by
  unfold leftOver
  simp only [reportedLength_eq_some.mpr ⟨hlow, hmin⟩, reportedLength_eq_some.mpr ⟨hhigh, hmax⟩, Option.getD_some]

theorem pinLengthRange_bounds (capabilities : Option ReportedCapabilities) :
    (pinLengthSaneMin : Int) ≤ (pinLengthRange capabilities).1 ∧
      (pinLengthRange capabilities).1 ≤ (pinLengthRange capabilities).2 ∧
      (pinLengthRange capabilities).2 ≤ pinLengthSaneMax := by
  have hlow : (pinLengthSaneMin : Int) ≤ (leftOver capabilities).1 :=
    (reportedLength_getD _ (by decide)).1
  have hhigh : (leftOver capabilities).2 ≤ (pinLengthSaneMax : Int) :=
    (reportedLength_getD _ (by decide)).2
  rw [pinLengthRange_eq]
  split_ifs with hcontradict
  · decide
  · exact ⟨hlow, by omega, hhigh⟩

theorem isValidPin_length {digits : DigitTable} {capabilities : Option ReportedCapabilities} {code : Text}
    (h : isValidPin digits code capabilities = true) :
    pinLengthSaneMin ≤ code.length ∧ code.length ≤ pinLengthSaneMax := by
  have hbounds := pinLengthRange_bounds capabilities
  simp only [isValidPin, Bool.and_eq_true, decide_eq_true_eq] at h
  obtain ⟨-, hlow, hhigh⟩ := h
  omega

theorem isValidPin_spec {digits : DigitTable} {code : Text} {capabilities : Option ReportedCapabilities}
    (h : isValidPin digits code capabilities = true) :
    pinLengthSaneMin ≤ code.length ∧ ∀ c ∈ code, digits.isDecimal c = true := by
  have hlength := isValidPin_length h
  simp only [isValidPin, Text.isAscii, Bool.and_eq_true, List.all_eq_true, decide_eq_true_eq] at h
  obtain ⟨⟨hascii, _, hdigits⟩, -⟩ := h
  have hall : ∀ c ∈ code, digits.isDecimal c = true := by
    intro c hc
    rw [digits.decimal_ascii c (hascii c hc), ← digits.digit_ascii c (hascii c hc)]
    exact hdigits c hc
  exact ⟨hlength.1, hall⟩

theorem mask_not_decimal (digits : DigitTable) : ∀ c ∈ mask, digits.isDecimal c = false := by
  have hmask : mask.all (fun c => decide (c.val < 128 ∧ ¬ (48 ≤ c.val ∧ c.val ≤ 57))) = true := by decide
  intro c hc
  have hh := of_decide_eq_true (List.all_eq_true.mp hmask c hc)
  rw [digits.decimal_ascii c hh.1]
  exact decide_eq_false hh.2

theorem mask_ne_nil : mask ≠ [] := by decide

open RunMasking in
/-- Masking keeps what is between the long digit runs. -/
theorem redactDigits_weave {digits : DigitTable} {kept : Text} {cuts : List (Text × Text)}
    (hcut : IsCut digits.isDecimal pinLengthSaneMin kept cuts) :
    redactDigits digits (weave kept cuts) = weave kept (cuts.map (fun cut => (mask, cut.2))) :=
  hcut.maskRuns (by decide)

open RunMasking in
theorem redactDigits_noLongRun (digits : DigitTable) (t : Text) :
    NoLongRun digits.isDecimal pinLengthSaneMin (redactDigits digits t) := by
  have hpos : 0 < pinLengthSaneMin := by decide
  obtain ⟨kept, cuts, hcut, rfl⟩ := exists_isCut (p := digits.isDecimal) hpos t
  rw [redactDigits_weave hcut]
  exact hcut.noLongRun (mask_not_decimal digits) mask_ne_nil

open RunMasking in
/-- No PIN that any capability map admits is quoted in masked text, and masking
changes the long digit runs alone. -/
theorem no_pin_survives_redaction (digits : DigitTable) :
    (∀ capabilities code t, isValidPin digits code capabilities = true →
      ¬ code <:+: redactDigits digits t) ∧
    (∀ t, NoLongRun digits.isDecimal pinLengthSaneMin (redactDigits digits t)) ∧
    (∀ t, ∃ kept cuts, IsCut digits.isDecimal pinLengthSaneMin kept cuts ∧ weave kept cuts = t ∧
      redactDigits digits t = weave kept (cuts.map (fun cut => (mask, cut.2)))) ∧
    (∀ kept cuts cuts', IsCut digits.isDecimal pinLengthSaneMin kept cuts →
      IsCut digits.isDecimal pinLengthSaneMin kept cuts' → cuts.map Prod.snd = cuts'.map Prod.snd →
      redactDigits digits (weave kept cuts) = redactDigits digits (weave kept cuts')) ∧
    (∀ t, redactDigits digits (redactDigits digits t) = redactDigits digits t) := by
  have hpos : 0 < pinLengthSaneMin := by decide
  have hshort := redactDigits_noLongRun digits
  refine ⟨?_, hshort, ?_, ?_, ?_⟩
  · intro capabilities code t hvalid hinfix
    have hcode := isValidPin_spec hvalid
    have hlt := hshort t code hinfix hcode.2
    omega
  · intro t
    obtain ⟨kept, cuts, hcut, rfl⟩ := exists_isCut (p := digits.isDecimal) hpos t
    exact ⟨kept, cuts, hcut, rfl, redactDigits_weave hcut⟩
  · intro kept cuts cuts' hcut hcut' heq
    have hmasks : ∀ l : List (Text × Text), l.map (fun cut => (mask, cut.2)) =
        (l.map Prod.snd).map (fun next => (mask, next)) := fun l => by simp
    rw [redactDigits_weave hcut, redactDigits_weave hcut', hmasks cuts, hmasks cuts', heq]
  · intro t
    exact maskRuns_of_noLongRun (hshort t)

end OnestiLock
