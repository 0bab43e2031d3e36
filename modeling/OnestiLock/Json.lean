import Mathlib.Algebra.Order.Field.Rat
import OnestiLock.Text

/-! Python's reading of JSON: `json.loads` on a text, with its limits on the
digits of an integer and on nesting. -/

namespace Json

open Python

/-- A number with a fraction or an exponent, as it is written: a whole number
times a power of ten. -/
inductive Real
  | finite (negative : Bool) (digits : Nat) (exponent : Int)
  | infinity (negative : Bool)
  | nan
  deriving DecidableEq, Repr

inductive Value
  | null
  | bool (b : Bool)
  | int (n : Int)
  | real (r : Real)
  | str (s : Text)
  | list (items : List Value)
  | object (fields : List (Text × Value))

/-- Why a text is refused: it is not JSON, an integer has more digits than
Python converts, or containers are nested deeper than it recurses. -/
inductive Fault
  | malformed | longInteger | tooDeep
  deriving DecidableEq, Repr

def code (c : Char) : CodePoint := CodePoint.ofChar c

def isSpace (c : CodePoint) : Bool := c.val == 0x20 || c.val == 0x09 || c.val == 0x0a || c.val == 0x0d

def skip (t : Text) : Text := t.dropWhile isSpace

def isDigit (c : CodePoint) : Bool := decide (48 ≤ c.val) && decide (c.val ≤ 57)

/-! Strings. -/

/-- Up to the closing quote; what follows a backslash does not close. -/
def rawString : Text → Option (Text × Text)
  | [] => none
  | c :: rest =>
    if c = code '"' then some ([], rest)
    else if c = code '\\' then
      match rest with
      | [] => none
      | e :: rest => (rawString rest).map (fun p => (c :: e :: p.1, p.2))
    else (rawString rest).map (fun p => (c :: p.1, p.2))

def hexValue (c : CodePoint) : Option Nat :=
  if 48 ≤ c.val ∧ c.val ≤ 57 then some (c.val - 48)
  else if 97 ≤ c.val ∧ c.val ≤ 102 then some (c.val - 87)
  else if 65 ≤ c.val ∧ c.val ≤ 70 then some (c.val - 55)
  else none

def hexUnit (a b c d : CodePoint) : Option CodePoint := do
  return CodePoint.ofNat
    (4096 * (← hexValue a) + 256 * (← hexValue b) + 16 * (← hexValue c) + (← hexValue d))

def escapes : List (CodePoint × CodePoint) :=
  [(code '"', code '"'), (code '\\', code '\\'), (code '/', code '/'), (code 'b', CodePoint.ofNat 8),
    (code 'f', CodePoint.ofNat 12), (code 'n', CodePoint.ofNat 10), (code 'r', CodePoint.ofNat 13),
    (code 't', CodePoint.ofNat 9)]

def simpleEscape (c : CodePoint) : Option CodePoint := (escapes.find? (fun p => p.1 == c)).map Prod.snd

/-- The characters of a string, and whether each was written as `\u`. -/
def units : Text → Option (List (Bool × CodePoint))
  | [] => some []
  | c :: rest =>
    if c = code '\\' then
      match rest with
      | [] => none
      | e :: rest =>
        if e = code 'u' then
          match rest with
          | a :: b :: c :: d :: rest =>
            (hexUnit a b c d).bind (fun unit => (units rest).map (fun l => (true, unit) :: l))
          | _ => none
        else (simpleEscape e).bind (fun unit => (units rest).map (fun l => (false, unit) :: l))
    else if c.val < 0x20 then none
    else (units rest).map (fun l => (false, c) :: l)

def isHighSurrogate (c : CodePoint) : Bool := decide (0xd800 ≤ c.val) && decide (c.val ≤ 0xdbff)

def isLowSurrogate (c : CodePoint) : Bool := decide (0xdc00 ≤ c.val) && decide (c.val ≤ 0xdfff)

def joined (high low : CodePoint) : CodePoint :=
  CodePoint.ofNat (0x10000 + (high.val - 0xd800) * 0x400 + (low.val - 0xdc00))

/-- Two escapes that are a surrogate pair are one character. -/
def joinSurrogates : List (Bool × CodePoint) → Text
  | (true, high) :: (true, low) :: rest =>
    if isHighSurrogate high = true ∧ isLowSurrogate low = true then joined high low :: joinSurrogates rest
    else high :: joinSurrogates ((true, low) :: rest)
  | (_, c) :: rest => c :: joinSurrogates rest
  | [] => []

/-- After the opening quote. -/
def string (t : Text) : Option (Text × Text) :=
  (rawString t).bind (fun p => (units p.1).map (fun l => (joinSurrogates l, p.2)))

/-! Numbers. -/

def ofDigits (t : Text) : Nat := t.foldl (fun n c => 10 * n + (c.val - 48)) 0

def signed (t : Text) : Bool × Text :=
  match t with
  | [] => (false, [])
  | c :: rest => if c = code '-' then (true, rest) else (false, t)

def wholePart (t : Text) : Text :=
  match t with
  | [] => []
  | c :: _ => if c = code '0' then [c] else t.takeWhile isDigit

def fractionPart (t : Text) : Text :=
  match t with
  | [] => []
  | c :: rest => if c = code '.' then rest.takeWhile isDigit else []

def dropFraction (t : Text) : Text :=
  if fractionPart t = [] then t else t.drop (1 + (fractionPart t).length)

def exponentSign (t : Text) : Bool × Text :=
  match t with
  | [] => (false, [])
  | s :: rest =>
    if s = code '-' then (true, rest) else if s = code '+' then (false, rest) else (false, t)

def exponentPart (t : Text) : Option (Int × Text) :=
  match t with
  | [] => none
  | c :: rest =>
    if c = code 'e' ∨ c = code 'E' then
      let (negative, rest) := exponentSign rest
      let digits := rest.takeWhile isDigit
      if digits = [] then none
      else some (if negative then -(ofDigits digits : Int) else ofDigits digits, rest.drop digits.length)
    else none

/-- An integer, unless a fraction or an exponent follows. -/
def number (t : Text) : Except Fault (Value × Text) :=
  let (negative, t) := signed t
  let whole := wholePart t
  if whole = [] then .error .malformed
  else
    let afterWhole := t.drop whole.length
    let fraction := fractionPart afterWhole
    let afterFraction := dropFraction afterWhole
    match exponentPart afterFraction with
    | some (exponent, rest) =>
      .ok (.real (.finite negative (ofDigits (whole ++ fraction)) (exponent - fraction.length)), rest)
    | none =>
      if fraction = [] then
        if whole.length ≤ maxStrDigits then
          .ok (.int (if negative then -(ofDigits whole : Int) else ofDigits whole), afterWhole)
        else .error .longInteger
      else .ok (.real (.finite negative (ofDigits (whole ++ fraction)) (-fraction.length)), afterFraction)

/-! Values. -/

def literals : List (Text × Value) :=
  [(text "null", .null), (text "true", .bool true), (text "false", .bool false), (text "NaN", .real .nan),
    (text "Infinity", .real (.infinity false)), (text "-Infinity", .real (.infinity true))]

def scalar (t : Text) : Except Fault (Value × Text) :=
  match t with
  | [] => .error .malformed
  | c :: rest =>
    if c = code '"' then
      match string rest with
      | some (s, rest) => .ok (.str s, rest)
      | none => .error .malformed
    else
      match literals.find? (fun l => l.1.isPrefixOf t) with
      | some (word, v) => .ok (v, t.drop word.length)
      | none => number t

section

variable {α : Type}

/-- The parts of a container, to its closing bracket. Each takes up some of the
text, whose length bounds their number. -/
def elements (parse : Text → Except Fault (α × Text)) (close : CodePoint) :
    Nat → Text → Except Fault (List α × Text)
  | 0, _ => .error .malformed
  | bound + 1, t => do
    let (a, rest) ← parse t
    match skip rest with
    | [] => .error .malformed
    | c :: rest =>
      if c = close then .ok ([a], rest)
      else if c = code ',' then do
        let (l, rest) ← elements parse close bound (skip rest)
        .ok (a :: l, rest)
      else .error .malformed

/-- After the opening bracket. -/
def container (parse : Text → Except Fault (α × Text)) (close : CodePoint) (t : Text) :
    Except Fault (List α × Text) :=
  match skip t with
  | [] => .error .malformed
  | c :: rest => if c = close then .ok ([], rest) else elements parse close (c :: rest).length (c :: rest)

end

/-- A key and its value. -/
def member (parse : Text → Except Fault (Value × Text)) (t : Text) : Except Fault ((Text × Value) × Text) :=
  match t with
  | [] => .error .malformed
  | c :: rest =>
    if c = code '"' then
      match string rest with
      | none => .error .malformed
      | some (key, rest) =>
        match skip rest with
        | [] => .error .malformed
        | c :: rest =>
          if c = code ':' then do
            let (v, rest) ← parse (skip rest)
            .ok ((key, v), rest)
          else .error .malformed
    else .error .malformed

/-- A value at the front of a text, with this many levels of containers left. -/
def value : Nat → Text → Except Fault (Value × Text)
  | 0, t =>
    match t with
    | [] => .error .malformed
    | c :: _ => if c = code '[' ∨ c = code '\x7b' then .error .tooDeep else scalar t
  | depth + 1, t =>
    match t with
    | [] => .error .malformed
    | c :: rest =>
      if c = code '[' then do
        let (items, rest) ← container (value depth) (code ']') rest
        .ok (.list items, rest)
      else if c = code '\x7b' then do
        let (fields, rest) ← container (member (value depth)) (code '\x7d') rest
        .ok (.object fields, rest)
      else scalar t

/-- `json.loads`, where Python recurses into this many levels of containers. -/
def loads (maxDepth : Nat) (t : Text) : Except Fault Value := do
  let (v, rest) ← value maxDepth (skip t)
  if skip rest = [] then .ok v else .error .malformed

/-! Looking at a value. -/

/-- The last of several equal keys counts. -/
def get (fields : List (Text × Value)) (key : Text) : Value :=
  match fields.reverse.find? (fun p => p.1 == key) with
  | some p => p.2
  | none => .null

namespace Real

def magnitude (digits : Nat) (exponent : Int) : ℚ := digits * 10 ^ exponent

/-- The nearest double is zero. -/
def isZero : Real → Bool
  | finite _ digits exponent => decide (magnitude digits exponent ≤ 1 / 2 ^ 1075)
  | infinity _ | nan => false

/-- The nearest double is `2 ^ k`. -/
def isTwoPow (k : Nat) : Real → Bool
  | finite false digits exponent =>
    decide ((2 : ℚ) ^ k * (1 - 1 / 2 ^ 54) ≤ magnitude digits exponent) &&
      decide (magnitude digits exponent ≤ (2 : ℚ) ^ k * (1 + 1 / 2 ^ 53))
  | finite true _ _ | infinity _ | nan => false

end Real

namespace Value

/-- `bool(v)`. -/
def truthy : Value → Bool
  | null => false
  | bool b => b
  | int n => n != 0
  | real r => !r.isZero
  | str s => !s.isEmpty
  | list items => !items.isEmpty
  | object fields => !fields.isEmpty

/-- `v == 2 ** k`. -/
def isTwoPow (k : Nat) : Value → Bool
  | bool b => b && k == 0
  | int n => n == 2 ^ k
  | real r => r.isTwoPow k
  | null | str _ | list _ | object _ => false

/-- `hash(v)` does not raise. -/
def hashable : Value → Bool
  | list _ | object _ => false
  | null | bool _ | int _ | real _ | str _ => true

end Value

end Json
