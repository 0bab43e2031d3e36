import Mathlib.Data.Nat.Basic

/-! Python strings: lists of code points, lone surrogates among them. -/

namespace Python

abbrev CodePoint := Fin 0x110000

abbrev Text := List CodePoint

theorem char_toNat_lt (c : Char) : c.toNat < 0x110000 := by
  have hvalid : c.toNat < 0xd800 ∨ 0xdfff < c.toNat ∧ c.toNat < 0x110000 := c.valid
  omega

def CodePoint.ofChar (c : Char) : CodePoint := ⟨c.toNat, char_toNat_lt c⟩

def CodePoint.ofNat (n : Nat) : CodePoint := Fin.ofNat 0x110000 n

/-- A string literal of the source. -/
def text (s : String) : Text := s.toList.map CodePoint.ofChar

/-- `str.isascii`. -/
def Text.isAscii (t : Text) : Bool := t.all (fun c => decide (c.val < 128))

/-- `s <= t`. -/
def Text.le : Text → Text → Bool
  | [], _ => true
  | _ :: _, [] => false
  | c :: s, d :: t => decide (c.val < d.val) || (c == d && Text.le s t)

theorem Text.le_total (s t : Text) : (Text.le s t || Text.le t s) = true := by
  induction s generalizing t with
  | nil => rfl
  | cons c s ih =>
    cases t with
    | nil => rfl
    | cons d t =>
      have htail := ih t
      simp only [Text.le, Bool.or_eq_true, Bool.and_eq_true, decide_eq_true_eq, beq_iff_eq, Fin.ext_iff] at htail ⊢
      rcases htail with htail | htail
      · simp only [htail, and_true]
        omega
      · simp only [htail, and_true]
        omega

theorem Text.le_trans (s t u : Text) (hs : Text.le s t = true) (ht : Text.le t u = true) : Text.le s u = true := by
  induction s generalizing t u with
  | nil => rfl
  | cons c s ih =>
    cases t with
    | nil => cases hs
    | cons d t =>
      cases u with
      | nil => cases ht
      | cons e u =>
        simp only [Text.le, Bool.or_eq_true, Bool.and_eq_true, decide_eq_true_eq, beq_iff_eq] at hs ht ⊢
        rcases hs with hs | ⟨rfl, hs⟩
        · left
          rcases ht with ht | ⟨rfl, -⟩
          · omega
          · exact hs
        · rcases ht with ht | ⟨rfl, ht⟩
          · exact Or.inl ht
          · exact Or.inr ⟨rfl, ih t u hs ht⟩

/-! UTF-8, strictly. -/

def isContinuation (b : UInt8) : Bool := decide (0x80 ≤ b.toNat) && decide (b.toNat ≤ 0xbf)

/-- `bytes.decode("utf-8")`; `none` is a `UnicodeDecodeError`. -/
def decodeUtf8 : List UInt8 → Option Text
  | [] => some []
  | a :: rest =>
    if a.toNat < 0x80 then (decodeUtf8 rest).map (fun t => CodePoint.ofNat a.toNat :: t)
    else if 0xc2 ≤ a.toNat ∧ a.toNat ≤ 0xdf then
      match rest with
      | b :: rest =>
        if isContinuation b then
          (decodeUtf8 rest).map (fun t => CodePoint.ofNat ((a.toNat - 0xc0) * 0x40 + (b.toNat - 0x80)) :: t)
        else none
      | [] => none
    else if 0xe0 ≤ a.toNat ∧ a.toNat ≤ 0xef then
      match rest with
      | b :: c :: rest =>
        if isContinuation b = true ∧ isContinuation c = true ∧ (a.toNat = 0xe0 → 0xa0 ≤ b.toNat) ∧
            (a.toNat = 0xed → b.toNat ≤ 0x9f) then
          (decodeUtf8 rest).map (fun t => CodePoint.ofNat
            ((a.toNat - 0xe0) * 0x1000 + (b.toNat - 0x80) * 0x40 + (c.toNat - 0x80)) :: t)
        else none
      | _ => none
    else if 0xf0 ≤ a.toNat ∧ a.toNat ≤ 0xf4 then
      match rest with
      | b :: c :: d :: rest =>
        if isContinuation b = true ∧ isContinuation c = true ∧ isContinuation d = true ∧
            (a.toNat = 0xf0 → 0x90 ≤ b.toNat) ∧ (a.toNat = 0xf4 → b.toNat ≤ 0x8f) then
          (decodeUtf8 rest).map (fun t => CodePoint.ofNat ((a.toNat - 0xf0) * 0x40000 +
            (b.toNat - 0x80) * 0x1000 + (c.toNat - 0x80) * 0x40 + (d.toNat - 0x80)) :: t)
        else none
      | _ => none
    else none

/-- An ASCII text as bytes, the same in every encoding a file may have. -/
def encodeAsciiText (t : Text) : List UInt8 := t.map (fun c => UInt8.ofNat c.val)

theorem decodeUtf8_encodeAsciiText {t : Text} (h : t.isAscii = true) :
    decodeUtf8 (encodeAsciiText t) = some t := by
  induction t with
  | nil => rfl
  | cons c t ih =>
    have hc : c.val < 128 ∧ Text.isAscii t = true := by simpa [Text.isAscii] using h
    have hbyte : (UInt8.ofNat c.val).toNat = c.val := by
      rw [UInt8.toNat_ofNat']
      omega
    have hcode : CodePoint.ofNat c.val = c := by
      apply Fin.ext
      show c.val % 0x110000 = c.val
      omega
    have htail : decodeUtf8 (t.map (fun c => UInt8.ofNat c.val)) = some t := ih hc.2
    rw [encodeAsciiText, List.map_cons, decodeUtf8.eq_def]
    simp only [hbyte, if_pos hc.1, htail, hcode, Option.map_some]

/-- The most digits of an integer that Python turns into text, or text into. -/
def maxStrDigits : Nat := 4300

end Python
