import Mathlib.Data.Nat.Digits.Lemmas
import OnestiLock.Json

/-! Python's writing of JSON, with an indent of two or all on one line. Strings
and numbers are read back as they were written. -/

namespace Json

open Python

/-! Writing. -/

def hexDigit (n : Nat) : CodePoint := CodePoint.ofNat (if n < 10 then 48 + n else 87 + n)

def unicodeEscape (n : Nat) : Text :=
  [code '\\', code 'u', hexDigit (n / 4096), hexDigit (n / 256 % 16), hexDigit (n / 16 % 16), hexDigit (n % 16)]

def isPlain (c : CodePoint) : Bool :=
  decide (0x20 ≤ c.val) && decide (c.val ≤ 0x7e) && c != code '"' && c != code '\\'

/-- In ASCII. -/
def escaped (c : CodePoint) : Text :=
  if isPlain c then [c]
  else
    match escapes.find? (fun p => p.2 == c) with
    | some p => [code '\\', p.1]
    | none =>
      if c.val < 0x10000 then unicodeEscape c.val
      else unicodeEscape (0xd800 + (c.val - 0x10000) / 0x400) ++
        unicodeEscape (0xdc00 + (c.val - 0x10000) % 0x400)

def writeString (s : Text) : Text := code '"' :: (s.flatMap escaped ++ [code '"'])

def decimal (n : Nat) : Text :=
  if n = 0 then [code '0'] else (Nat.digits 10 n).reverse.map (fun d => CodePoint.ofNat (48 + d))

def writeInt (n : Int) : Text := if n < 0 then code '-' :: decimal n.natAbs else decimal n.natAbs

def newline (level : Nat) : Text := code '\n' :: List.replicate (2 * level) (code ' ')

theorem newline_blank (level : Nat) : ∀ c ∈ newline level, isSpace c = true := by
  intro c hc
  rcases List.mem_cons.mp hc with rfl | hc
  · decide
  · rw [List.eq_of_mem_replicate hc]
    decide

theorem space_blank : ∀ c ∈ [code ' '], isSpace c = true := by
  intro c hc
  rw [List.mem_singleton.mp hc]
  rfl

/-- The space inside the brackets of a container and after its commas, at each
level of containers. -/
structure Spacing where
  inside : Nat → Text
  between : Nat → Text
  inside_blank : ∀ level, ∀ c ∈ inside level, isSpace c = true
  between_blank : ∀ level, ∀ c ∈ between level, isSpace c = true

/-- `indent=2`. -/
def Spacing.indented : Spacing := ⟨newline, newline, newline_blank, newline_blank⟩

/-- No indent. -/
def Spacing.compact : Spacing := ⟨fun _ => [], fun _ => [code ' '], fun _ => by simp, fun _ => space_blank⟩

section

variable (spacing : Spacing) (reprFloat : Real → Text)

mutual

/-- `json.dumps`, of a value within this many containers. -/
def write (level : Nat) : Value → Text
  | .null => text "null"
  | .bool true => text "true"
  | .bool false => text "false"
  | .int n => writeInt n
  | .real r => reprFloat r
  | .str s => writeString s
  | .list [] => text "[]"
  | .list (v :: l) =>
    code '[' :: (spacing.inside (level + 1) ++ (write (level + 1) v ++ (writeItems (level + 1) l ++
      (spacing.inside level ++ [code ']']))))
  | .object [] => text "\x7b\x7d"
  | .object ((k, v) :: l) =>
    code '\x7b' :: (spacing.inside (level + 1) ++ (writeString k ++ (text ": " ++ (write (level + 1) v ++
      (writeFields (level + 1) l ++ (spacing.inside level ++ [code '\x7d']))))))

def writeItems (level : Nat) : List Value → Text
  | [] => []
  | v :: l => code ',' :: (spacing.between level ++ (write level v ++ writeItems level l))

def writeFields (level : Nat) : List (Text × Value) → Text
  | [] => []
  | (k, v) :: l =>
    code ',' :: (spacing.between level ++ (writeString k ++ (text ": " ++ (write level v ++ writeFields level l))))

end

end

/-! Strings. -/

/-- The units of a character as it is written. -/
def unitsOf (c : CodePoint) : List (Bool × CodePoint) :=
  if isPlain c then [(false, c)]
  else
    match escapes.find? (fun p => p.2 == c) with
    | some _ => [(false, c)]
    | none =>
      if c.val < 0x10000 then [(true, c)]
      else [(true, CodePoint.ofNat (0xd800 + (c.val - 0x10000) / 0x400)),
        (true, CodePoint.ofNat (0xdc00 + (c.val - 0x10000) % 0x400))]

theorem ofNat_val {n : Nat} (h : n < 0x110000) : (CodePoint.ofNat n).val = n := Nat.mod_eq_of_lt h

theorem ofNat_self (c : CodePoint) : CodePoint.ofNat c.val = c := Fin.ext (ofNat_val c.isLt)

theorem hexValue_hexDigit {n : Nat} (h : n < 16) : hexValue (hexDigit n) = some n := by
  interval_cases n <;> rfl

theorem hexUnit_unicodeEscape {n : Nat} (h : n < 0x10000) :
    hexUnit (hexDigit (n / 4096)) (hexDigit (n / 256 % 16)) (hexDigit (n / 16 % 16)) (hexDigit (n % 16)) =
      some (CodePoint.ofNat n) := by
  have h1 : hexValue (hexDigit (n / 4096)) = some (n / 4096) := hexValue_hexDigit (by omega)
  have h2 : hexValue (hexDigit (n / 256 % 16)) = some (n / 256 % 16) := hexValue_hexDigit (by omega)
  have h3 : hexValue (hexDigit (n / 16 % 16)) = some (n / 16 % 16) := hexValue_hexDigit (by omega)
  have h4 : hexValue (hexDigit (n % 16)) = some (n % 16) := hexValue_hexDigit (by omega)
  have hsum : 4096 * (n / 4096) + 256 * (n / 256 % 16) + 16 * (n / 16 % 16) + n % 16 = n := by omega
  simp [hexUnit, h1, h2, h3, h4, hsum]

theorem units_unicodeEscape {n : Nat} (h : n < 0x10000) (t : Text) :
    units (unicodeEscape n ++ t) = (units t).map (fun l => (true, CodePoint.ofNat n) :: l) := by
  have hunit := hexUnit_unicodeEscape h
  rw [unicodeEscape, units.eq_def]
  simp [hunit]

theorem hexDigit_ne {n : Nat} (h : n < 16) : hexDigit n ≠ code '"' ∧ hexDigit n ≠ code '\\' := by
  interval_cases n <;> decide

theorem rawString_cons {c : CodePoint} (hquote : c ≠ code '"') (hback : c ≠ code '\\') (t : Text) :
    rawString (c :: t) = (rawString t).map (fun p => (c :: p.1, p.2)) := by
  rw [rawString.eq_def]
  simp [hquote, hback]

theorem rawString_escape (e : CodePoint) (t : Text) :
    rawString (code '\\' :: e :: t) = (rawString t).map (fun p => (code '\\' :: e :: p.1, p.2)) := by
  have hquote : code '\\' ≠ code '"' := by decide
  rw [rawString.eq_def]
  simp [hquote]

theorem units_escape {e : CodePoint} (hu : e ≠ code 'u') (t : Text) :
    units (code '\\' :: e :: t) = (simpleEscape e).bind (fun c => (units t).map (fun l => (false, c) :: l)) := by
  rw [units.eq_def]
  simp [hu]

theorem units_cons {c : CodePoint} (hback : c ≠ code '\\') (hspace : 0x20 ≤ c.val) (t : Text) :
    units (c :: t) = (units t).map (fun l => (false, c) :: l) := by
  rw [units.eq_def]
  simp [hback, Nat.not_lt.mpr hspace]

theorem rawString_unicodeEscape {n : Nat} (h : n < 0x10000) (t : Text) :
    rawString (unicodeEscape n ++ t) = (rawString t).map (fun p => (unicodeEscape n ++ p.1, p.2)) := by
  have h1 := hexDigit_ne (show n / 4096 < 16 by omega)
  have h2 := hexDigit_ne (show n / 256 % 16 < 16 by omega)
  have h3 := hexDigit_ne (show n / 16 % 16 < 16 by omega)
  have h4 := hexDigit_ne (show n % 16 < 16 by omega)
  simp only [unicodeEscape, List.cons_append, List.nil_append, rawString_escape, rawString_cons h1.1 h1.2,
    rawString_cons h2.1 h2.2, rawString_cons h3.1 h3.2, rawString_cons h4.1 h4.2, Option.map_map]
  rfl

theorem escapes_back {p : CodePoint × CodePoint} (hp : p ∈ escapes) :
    p.1 ≠ code 'u' ∧ simpleEscape p.1 = some p.2 := by
  have hall : escapes.all (fun p => p.1 != code 'u' && simpleEscape p.1 == some p.2) = true := by decide
  simpa using List.all_eq_true.mp hall p hp

theorem rawString_escaped (c : CodePoint) (t : Text) :
    rawString (escaped c ++ t) = (rawString t).map (fun p => (escaped c ++ p.1, p.2)) := by
  unfold escaped
  by_cases hplain : isPlain c = true
  · have hc : c ≠ code '"' ∧ c ≠ code '\\' := by
      simp only [isPlain, Bool.and_eq_true, bne_iff_ne] at hplain
      exact ⟨hplain.1.2, hplain.2⟩
    simp only [hplain, if_true, List.cons_append, List.nil_append]
    exact rawString_cons hc.1 hc.2 t
  · simp only [hplain, Bool.false_eq_true, if_false]
    split
    · exact rawString_escape _ t
    · split
      · exact rawString_unicodeEscape (by omega) t
      · have hhigh : 0xd800 + (c.val - 0x10000) / 0x400 < 0x10000 := by omega
        have hlow : 0xdc00 + (c.val - 0x10000) % 0x400 < 0x10000 := by omega
        rw [List.append_assoc, rawString_unicodeEscape hhigh, rawString_unicodeEscape hlow, Option.map_map]
        cases rawString t with
        | none => rfl
        | some p => simp [List.append_assoc]

theorem units_escaped (c : CodePoint) (t : Text) :
    units (escaped c ++ t) = (units t).map (fun l => unitsOf c ++ l) := by
  unfold escaped unitsOf
  by_cases hplain : isPlain c = true
  · have hc : c ≠ code '\\' ∧ 0x20 ≤ c.val := by
      simp only [isPlain, Bool.and_eq_true, bne_iff_ne, decide_eq_true_eq] at hplain
      exact ⟨hplain.2, hplain.1.1.1⟩
    simp only [hplain, if_true, List.cons_append, List.nil_append]
    exact units_cons hc.1 hc.2 t
  · simp only [hplain, Bool.false_eq_true, if_false]
    cases hfind : escapes.find? (fun p => p.2 == c) with
    | some p =>
      have hback := escapes_back (List.mem_of_find?_eq_some hfind)
      have hp : p.2 = c := by simpa using List.find?_some hfind
      have hunits := units_escape hback.1 t
      rw [hback.2, hp] at hunits
      simpa using hunits
    | none =>
      by_cases hsmall : c.val < 0x10000
      · simp only [hsmall, if_true]
        have hunits := units_unicodeEscape hsmall t
        rw [ofNat_self] at hunits
        exact hunits
      · have hhigh : 0xd800 + (c.val - 0x10000) / 0x400 < 0x10000 := by omega
        have hlow : 0xdc00 + (c.val - 0x10000) % 0x400 < 0x10000 := by omega
        simp only [hsmall, if_false]
        rw [List.append_assoc, units_unicodeEscape hhigh, units_unicodeEscape hlow, Option.map_map]
        cases units t with
        | none => rfl
        | some l => rfl

/-- No high surrogate stands before a low one. -/
def Unpaired : Text → Prop
  | c :: d :: rest => ¬ (isHighSurrogate c = true ∧ isLowSurrogate d = true) ∧ Unpaired (d :: rest)
  | _ => True

theorem joinSurrogates_cons {b : Bool} {c : CodePoint} {l : List (Bool × CodePoint)}
    (h : ∀ d rest, l = (true, d) :: rest → ¬ (isHighSurrogate c = true ∧ isLowSurrogate d = true)) :
    joinSurrogates ((b, c) :: l) = c :: joinSurrogates l := by
  cases b with
  | false => rw [joinSurrogates.eq_def]
  | true =>
    cases l with
    | nil => rw [joinSurrogates.eq_def]
    | cons u rest =>
      obtain ⟨b, d⟩ := u
      cases b with
      | false => rw [joinSurrogates.eq_def]
      | true =>
        rw [joinSurrogates.eq_def]
        simp only [if_neg (h d rest rfl)]

theorem unitsOf_cases (c : CodePoint) : (∃ b, unitsOf c = [(b, c)]) ∨ 0x10000 ≤ c.val ∧
    unitsOf c = [(true, CodePoint.ofNat (0xd800 + (c.val - 0x10000) / 0x400)),
      (true, CodePoint.ofNat (0xdc00 + (c.val - 0x10000) % 0x400))] := by
  unfold unitsOf
  split
  · exact Or.inl ⟨false, rfl⟩
  · split
    · exact Or.inl ⟨false, rfl⟩
    · split
      · exact Or.inl ⟨true, rfl⟩
      · exact Or.inr ⟨by omega, rfl⟩

/-- The first unit of a character is a low surrogate only if the character is. -/
theorem unitsOf_head (c : CodePoint) : ∃ b d rest, unitsOf c = (b, d) :: rest ∧
    (isLowSurrogate d = true → d = c) := by
  rcases unitsOf_cases c with ⟨b, hb⟩ | ⟨hbig, hpair⟩
  · exact ⟨b, c, [], hb, fun _ => rfl⟩
  · refine ⟨_, _, _, hpair, fun hlow => ?_⟩
    have hval := ofNat_val (show 0xd800 + (c.val - 0x10000) / 0x400 < 0x110000 by omega)
    simp only [isLowSurrogate, hval, Bool.and_eq_true, decide_eq_true_eq] at hlow
    omega

theorem joinSurrogates_unitsOf {s : Text} (h : Unpaired s) : joinSurrogates (s.flatMap unitsOf) = s := by
  induction s with
  | nil => rfl
  | cons c s ih =>
    have htail : Unpaired s ∧ ∀ d rest, s = d :: rest → ¬ (isHighSurrogate c = true ∧ isLowSurrogate d = true) := by
      cases s with
      | nil => exact ⟨trivial, by simp⟩
      | cons d rest =>
        refine ⟨h.2, fun e more heq => ?_⟩
        cases heq
        exact h.1
    have hrest := ih htail.1
    have hnext : ∀ d rest, s.flatMap unitsOf = (true, d) :: rest →
        ¬ (isHighSurrogate c = true ∧ isLowSurrogate d = true) := by
      intro d rest heq hsur
      cases s with
      | nil => cases heq
      | cons e s =>
        obtain ⟨b, u, more, hu, hlow⟩ := unitsOf_head e
        rw [List.flatMap_cons, hu, List.cons_append] at heq
        cases heq
        have hue : d = e := hlow hsur.2
        exact htail.2 e s rfl ⟨hsur.1, hue ▸ hsur.2⟩
    rw [List.flatMap_cons]
    rcases unitsOf_cases c with ⟨b, hb⟩ | ⟨hbig, hpair⟩
    · rw [hb, List.cons_append, List.nil_append, joinSurrogates_cons hnext, hrest]
    · have hhigh := ofNat_val (show 0xd800 + (c.val - 0x10000) / 0x400 < 0x110000 by omega)
      have hlow := ofNat_val (show 0xdc00 + (c.val - 0x10000) % 0x400 < 0x110000 by omega)
      have hsur : isHighSurrogate (CodePoint.ofNat (0xd800 + (c.val - 0x10000) / 0x400)) = true ∧
          isLowSurrogate (CodePoint.ofNat (0xdc00 + (c.val - 0x10000) % 0x400)) = true := by
        simp only [isHighSurrogate, isLowSurrogate, hhigh, hlow, Bool.and_eq_true, decide_eq_true_eq]
        omega
      have hjoined : joined (CodePoint.ofNat (0xd800 + (c.val - 0x10000) / 0x400))
          (CodePoint.ofNat (0xdc00 + (c.val - 0x10000) % 0x400)) = c := by
        apply Fin.ext
        rw [joined, hhigh, hlow, ofNat_val]
        · omega
        · omega
      rw [hpair, List.cons_append, List.cons_append, List.nil_append, joinSurrogates.eq_def]
      simp only [if_pos hsur, hjoined, hrest]

theorem string_writeString {s : Text} (h : Unpaired s) (rest : Text) :
    string (s.flatMap escaped ++ code '"' :: rest) = some (s, rest) := by
  have hraw : ∀ s : Text, rawString (s.flatMap escaped ++ code '"' :: rest) = some (s.flatMap escaped, rest) := by
    intro s
    induction s with
    | nil =>
      rw [List.flatMap_nil, List.nil_append, rawString.eq_def]
      simp
    | cons c s ih => rw [List.flatMap_cons, List.append_assoc, rawString_escaped, ih, Option.map_some]
  have hunits : ∀ s : Text, units (s.flatMap escaped) = some (s.flatMap unitsOf) := by
    intro s
    induction s with
    | nil => rfl
    | cons c s ih => rw [List.flatMap_cons, units_escaped, ih, Option.map_some, List.flatMap_cons]
  rw [string, hraw, Option.bind_some, hunits, Option.map_some, joinSurrogates_unitsOf h]

/-! Numbers. -/

/-- What follows does not go on with a number. -/
def NumberEnds (rest : Text) : Prop :=
  ∀ c ∈ rest.head?, isDigit c = false ∧ c ≠ code '.' ∧ c ≠ code 'e' ∧ c ≠ code 'E'

theorem isDigit_digit {d : Nat} (h : d < 10) :
    isDigit (CodePoint.ofNat (48 + d)) = true ∧ (CodePoint.ofNat (48 + d)).val - 48 = d := by
  have hval : (CodePoint.ofNat (48 + d)).val = 48 + d := ofNat_val (by omega)
  simp only [isDigit, hval, Bool.and_eq_true, decide_eq_true_eq]
  omega

theorem decimal_digits (n : Nat) : ∀ c ∈ decimal n, isDigit c = true := by
  unfold decimal
  split
  · intro c hc
    rw [List.mem_singleton.mp hc]
    rfl
  · intro c hc
    obtain ⟨d, hd, rfl⟩ := List.mem_map.mp hc
    exact (isDigit_digit (Nat.digits_lt_base (by omega) (List.mem_reverse.mp hd))).1

theorem ofDigits_decimal (n : Nat) : ofDigits (decimal n) = n := by
  unfold decimal
  split
  · rename_i h
    rw [h]
    rfl
  · have hfold : ∀ l : List Nat, (∀ d ∈ l, d < 10) →
        ofDigits (l.reverse.map (fun d => CodePoint.ofNat (48 + d))) = Nat.ofDigits 10 l := by
      intro l hl
      induction l with
      | nil => rfl
      | cons d l ih =>
        have hd := (isDigit_digit (hl d (by simp))).2
        have hrest := ih (fun e he => hl e (by simp [he]))
        rw [ofDigits] at hrest
        simp only [ofDigits, List.reverse_cons, List.map_append, List.foldl_append, hrest, List.map_cons,
          List.map_nil, List.foldl_cons, List.foldl_nil, hd, Nat.ofDigits_cons]
        omega
    rw [hfold _ (fun d hd => Nat.digits_lt_base (by omega) hd), Nat.ofDigits_digits]

theorem decimal_ne_nil (n : Nat) : decimal n ≠ [] := by
  unfold decimal
  split
  · exact List.cons_ne_nil _ _
  · rename_i h
    simpa using Nat.digits_ne_nil_iff_ne_zero.mpr h

theorem decimal_length {n : Nat} (h : n < 10 ^ maxStrDigits) : (decimal n).length ≤ maxStrDigits := by
  unfold decimal
  split
  · simp [maxStrDigits]
  · rw [List.length_map, List.length_reverse]
    exact Nat.digits_length_le_iff (by omega) n |>.mpr h

theorem takeWhile_digits {t rest : Text} (ht : ∀ c ∈ t, isDigit c = true)
    (hrest : ∀ c ∈ rest.head?, isDigit c = false) : (t ++ rest).takeWhile isDigit = t := by
  have hnone : rest.takeWhile isDigit = [] := by
    cases rest with
    | nil => rfl
    | cons c rest => simp [hrest c rfl]
  rw [List.takeWhile_append_of_pos ht, hnone, List.append_nil]

theorem wholePart_decimal (n : Nat) {rest : Text} (hrest : ∀ c ∈ rest.head?, isDigit c = false) :
    wholePart (decimal n ++ rest) = decimal n := by
  by_cases hzero : n = 0
  · have hdecimal : decimal n = [code '0'] := if_pos hzero
    rw [hdecimal]
    simp [wholePart]
  · cases hd : decimal n with
    | nil => exact absurd hd (decimal_ne_nil n)
    | cons c more =>
      have hfirst : c ≠ code '0' := by
        have hlast := Nat.getLast_digit_ne_zero 10 hzero
        have hmap : decimal n = (Nat.digits 10 n).reverse.map (fun d => CodePoint.ofNat (48 + d)) := if_neg hzero
        have hhead : (decimal n).head? = ((Nat.digits 10 n).getLast?).map (fun d => CodePoint.ofNat (48 + d)) := by
          rw [hmap, List.head?_map, List.head?_reverse]
        rw [hd, List.getLast?_eq_some_getLast (Nat.digits_ne_nil_iff_ne_zero.mpr hzero)] at hhead
        have hc : c = CodePoint.ofNat (48 + (Nat.digits 10 n).getLast _) := Option.some.inj hhead
        intro heq
        have hten := Nat.digits_lt_base (b := 10) (by omega)
          (List.getLast_mem (Nat.digits_ne_nil_iff_ne_zero.mpr hzero))
        have hval := (isDigit_digit hten).2
        rw [← hc, heq] at hval
        exact hlast hval.symm
      have htake : ((c :: more) ++ rest).takeWhile isDigit = c :: more :=
        takeWhile_digits (hd ▸ decimal_digits n) hrest
      rw [List.cons_append] at htake ⊢
      simp only [wholePart, if_neg hfirst, htake]

/-- Every literal starts with two characters that are no digits. -/
theorem literals_not_prefix {t : Text} (h : ∃ c rest, t = c :: rest ∧
    (isDigit c = true ∨ ∃ d more, rest = d :: more ∧ isDigit d = true)) :
    literals.find? (fun l => l.1.isPrefixOf t) = none := by
  have hall : literals.all (fun l => match l.1 with
      | a :: b :: _ => !isDigit a && !isDigit b
      | _ => false) = true := by decide
  refine List.find?_eq_none.mpr (fun l hl hprefix => ?_)
  have hword := List.all_eq_true.mp hall l hl
  obtain ⟨word, v⟩ := l
  rcases word with _ | ⟨a, _ | ⟨b, word⟩⟩
  · cases hword
  · cases hword
  · have hab : isDigit a = false ∧ isDigit b = false := by simpa using hword
    obtain ⟨c, rest, rfl, hc | ⟨d, more, rfl, hd⟩⟩ := h
    · have hac : a = c := (List.cons_prefix_cons.mp (List.isPrefixOf_iff_prefix.mp hprefix)).1
      rw [hac, hc] at hab
      exact absurd hab.1 (by simp)
    · have hrest := (List.cons_prefix_cons.mp (List.isPrefixOf_iff_prefix.mp hprefix)).2
      have hbd : b = d := (List.cons_prefix_cons.mp hrest).1
      rw [hbd, hd] at hab
      exact absurd hab.2 (by simp)

theorem exponentPart_none {rest : Text} (h : NumberEnds rest) : exponentPart rest = none := by
  cases rest with
  | nil => rfl
  | cons c rest =>
    obtain ⟨-, -, he, hE⟩ := h c rfl
    simp [exponentPart, he, hE]

theorem fractionPart_nil {rest : Text} (h : NumberEnds rest) : fractionPart rest = [] := by
  cases rest with
  | nil => rfl
  | cons c rest => simp [fractionPart, (h c rfl).2.1]

theorem dropFraction_self {rest : Text} (h : NumberEnds rest) : dropFraction rest = rest :=
  if_pos (fractionPart_nil h)

theorem number_decimal {t rest : Text} {negative : Bool} {n : Nat} (hn : n < 10 ^ maxStrDigits)
    (h : NumberEnds rest) (ht : signed t = (negative, decimal n ++ rest)) :
    number t = .ok (.int (if negative then -(n : Int) else n), rest) := by
  have hwhole := wholePart_decimal n (fun c hc => (h c hc).1)
  have hdrop : (decimal n ++ rest).drop (decimal n).length = rest := by simp
  simp only [number, ht, hwhole, decimal_ne_nil, if_false, hdrop, fractionPart_nil h, if_true,
    dropFraction_self h, exponentPart_none h, decimal_length hn, ofDigits_decimal]

theorem scalar_writeInt {n : Int} (hn : n.natAbs < 10 ^ maxStrDigits) {rest : Text} (h : NumberEnds rest) :
    scalar (writeInt n ++ rest) = .ok (.int n, rest) := by
  obtain ⟨c, more, hd⟩ := List.exists_cons_of_ne_nil (decimal_ne_nil n.natAbs)
  have hc : isDigit c = true := decimal_digits n.natAbs c (by simp [hd])
  have hquote : ∀ c, isDigit c = true → c ≠ code '"' ∧ c ≠ code '-' := by
    rintro c hc
    constructor
    · rintro rfl
      cases hc
    · rintro rfl
      cases hc
  by_cases hneg : n < 0
  · have hwrite : writeInt n ++ rest = code '-' :: (decimal n.natAbs ++ rest) := by
      rw [writeInt, if_pos hneg, List.cons_append]
    have hsigned : signed (writeInt n ++ rest) = (true, decimal n.natAbs ++ rest) := by
      rw [hwrite, signed, if_pos rfl]
    have hnone : literals.find? (fun l => l.1.isPrefixOf (code '-' :: (decimal n.natAbs ++ rest))) = none := by
      refine literals_not_prefix ⟨_, _, rfl, Or.inr ⟨c, more ++ rest, ?_, hc⟩⟩
      rw [hd, List.cons_append]
    have hvalue : -(n.natAbs : Int) = n := by omega
    have hnumber := number_decimal hn h hsigned
    rw [if_pos rfl, hvalue, hwrite] at hnumber
    rw [hwrite, scalar, if_neg (by decide), hnone]
    exact hnumber
  · have hwrite : writeInt n ++ rest = decimal n.natAbs ++ rest := by rw [writeInt, if_neg hneg]
    have hcons : decimal n.natAbs ++ rest = c :: (more ++ rest) := by rw [hd, List.cons_append]
    have hsigned : signed (writeInt n ++ rest) = (false, decimal n.natAbs ++ rest) := by
      rw [hwrite, hcons, signed, if_neg (hquote c hc).2]
    have hnone : literals.find? (fun l => l.1.isPrefixOf (c :: (more ++ rest))) = none :=
      literals_not_prefix ⟨c, _, rfl, Or.inl hc⟩
    have hvalue : (n.natAbs : Int) = n := by omega
    have hnumber := number_decimal hn h hsigned
    rw [if_neg (by simp), hvalue, hwrite, hcons] at hnumber
    rw [hwrite, hcons, scalar, if_neg (hquote c hc).1, hnone]
    exact hnumber

end Json
