import OnestiLock.Lines

/-! The release note of a version and its short cut (`scripts/release_notes.py`):
what stands under `### Action required`. -/

namespace OnestiLock.ReleaseNotes

open Python

def action : Text := text "Action required"

def space : CodePoint := CodePoint.ofNat 32

def tab : CodePoint := CodePoint.ofNat 9

def removePrefix (front t : Text) : Option Text := if front.isPrefixOf t then some (t.drop front.length) else none

/-! The patterns, on one line of text. -/

/-- What `.+?` takes when whitespace may follow it to the end: one character at least. -/
def lazyName : Text → Text
  | [] => []
  | c :: rest => c :: rest.rdropWhile isWhitespace

/-- `CATEGORY`, with its name. The spaces in front take all but what the name needs. -/
def category (line : Text) : Option Text :=
  match removePrefix (text "###") line with
  | none => none
  | some rest =>
    let spaces := rest.takeWhile (· = space)
    match rest.dropWhile (· = space) with
    | [] => if 2 ≤ spaces.length then some [space] else none
    | c :: more => if spaces = [] then none else some (lazyName (c :: more))

/-- `BULLET`. -/
def isBullet (line : Text) : Bool :=
  match line with
  | [] => false
  | c :: rest =>
    decide (c = CodePoint.ofChar '-' ∨ c = CodePoint.ofChar '*') && decide (rest.takeWhile (· = space) ≠ []) &&
      (match rest.dropWhile (· = space) with
        | [] => false
        | d :: _ => !isWhitespace d)

/-- `line.startswith((" ", "\t"))`. -/
def isIndented (line : Text) : Bool :=
  match line with
  | [] => false
  | c :: _ => decide (c = space ∨ c = tab)

/-- `MARKER` at the front of a text, and what follows it. -/
def marker (t : Text) : Option Text :=
  match removePrefix (text "<!--") (t.dropWhile (fun c => c = space ∨ c = tab)) with
  | none => none
  | some rest =>
    match removePrefix (text "short") (rest.dropWhile isWhitespace) with
    | none => none
    | some rest => removePrefix (text "-->") (rest.dropWhile isWhitespace)

/-- `MARKER.search`. -/
def hasMarker (t : Text) : Bool := t.tails.any (fun suffix => (marker suffix).isSome)

/-- `MARKER.sub("", t)`, with as many steps as there are characters. -/
def removeMarkers : Nat → Text → Text
  | 0, t => t
  | _ + 1, [] => []
  | n + 1, c :: rest =>
    match marker (c :: rest) with
    | some after => removeMarkers n after
    | none => c :: removeMarkers n rest

def stripMarkers (t : Text) : Text := removeMarkers t.length t

def isAction (casefold : Text → Text) (name : Text) : Bool := casefold name == casefold action

/-- `str.casefold` as far as ASCII goes. -/
def foldAscii (t : Text) : Text :=
  t.map (fun c => if 65 ≤ c.val ∧ c.val ≤ 90 then CodePoint.ofNat (c.val + 32) else c)

/-- `str.strip`. -/
def strip (t : Text) : Text := (t.dropWhile isWhitespace).rdropWhile isWhitespace

inductive NoteError
  | emptyAction (version heading : Text)
  | unmarked (version : Text)
  deriving DecidableEq

def markerText : Text := text "<!--short-->"

def NoteError.message : NoteError → Text
  | emptyAction version heading =>
    text "the section for " ++ version ++ text " has '" ++ heading ++ text "' with nothing under it"
  | unmarked version => text "the section for " ++ version ++ text " has no bullet marked with " ++ markerText

/-! `lift_action`. -/

def isHeading (line : Text) : Bool := (category line).isSome

section

variable (casefold : Text → Text)

def isActionHeading (line : Text) : Bool := (category line).any (isAction casefold)

/-- The text with its first `### Action required` in front of the other categories. -/
def liftAction (t version : Text) : Except NoteError Text :=
  let lines := splitlines t
  let lead := lines.takeWhile (fun line => !isHeading line)
  let rest := lines.dropWhile (fun line => !isHeading line)
  let before := rest.takeWhile (fun line => !isActionHeading casefold line)
  match rest.dropWhile (fun line => !isActionHeading casefold line) with
  | [] => .ok t
  | heading :: tail =>
    let under := tail.takeWhile (fun line => !isHeading line)
    let after := tail.dropWhile (fun line => !isHeading line)
    if under.all isBlank then .error (.emptyAction version (strip heading))
    else if before = [] then .ok t
    else
      let block := (heading :: under).rdropWhile isBlank
      let others := (before ++ after).rdropWhile isBlank
      .ok (stripNewlines (joinLines (lead ++ block ++ [[]] ++ others)))

end

/-! `split_categories`. -/

/-- The state of its loop, the last category first. -/
structure Scan where
  lead : List Text
  categories : List (Text × List Text)
  current : Option (List Text)

/-- A bullet's lines without the blank ones at its end, joined. -/
def bulletText (lines : List Text) : Text := joinLines (lines.rdropWhile isBlank)

def Scan.close (s : Scan) : Scan :=
  match s.current, s.categories with
  | some lines, (name, bullets) :: older =>
    { s with categories := (name, bullets ++ [bulletText lines]) :: older, current := none }
  | _, _ => s

def Scan.line (s : Scan) (line : Text) : Scan :=
  match category line with
  | some name =>
    let closed := s.close
    { closed with categories := (name, []) :: closed.categories }
  | none =>
    if s.categories = [] then { s with lead := s.lead ++ [line] }
    else if isBullet line then { s.close with current := some [line] }
    else match s.current with
    | some lines =>
      if isBlank line || isIndented line then { s with current := some (lines ++ [line]) } else s.close
    | none => s.close

def splitCategories (t : Text) : Text × List (Text × List Text) :=
  let s := ((splitlines t).foldl Scan.line ⟨[], [], none⟩).close
  (stripNewlines (joinLines s.lead), s.categories.reverse)

/-! `build_short`. -/

section

variable (casefold : Text → Text)

def markedBullets (notes : Text) : List (Text × List Text) :=
  (splitCategories notes).2.filterMap (fun c =>
    if isAction casefold c.1 then none
    else
      let marked := c.2.filter hasMarker
      if marked = [] then none else some (c.1, marked))

def categoryParts (c : Text × List Text) : List Text := [text "### " ++ c.1, []] ++ c.2 ++ [[]]

def changelogLine : Text := text "Every change in this release is in [CHANGELOG.md](CHANGELOG.md)."

/-- The note before its markers are removed. -/
def shortText (notes : Text) : Text :=
  let split := splitCategories notes
  joinLines ((if split.1 = [] then [] else [split.1, []]) ++
    (split.2.filter (fun c => isAction casefold c.1 && decide (c.2 ≠ []))).flatMap categoryParts ++
    (markedBullets casefold notes).flatMap categoryParts ++ [changelogLine])

def buildShort (notes version : Text) : Except NoteError Text :=
  if markedBullets casefold notes = [] then .error (.unmarked version)
  else .ok (stripMarkers (shortText casefold notes))

end

theorem buildShort_ok {casefold : Text → Text} {notes version note : Text} :
    buildShort casefold notes version = .ok note ↔
      markedBullets casefold notes ≠ [] ∧ note = stripMarkers (shortText casefold notes) := by
  unfold buildShort
  split
  · rename_i hmarked
    simp [hmarked]
  · rename_i hmarked
    simp [hmarked, eq_comm]

end OnestiLock.ReleaseNotes
