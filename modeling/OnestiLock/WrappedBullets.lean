import Mathlib.Data.List.Infix
import OnestiLock.MarkerRemoval
import OnestiLock.NoteSteps

/-! A bullet and the lines below it: those `split_categories` keeps, and those its
grammar gives the bullet. They are the same where wrapped lines are indented. -/

namespace OnestiLock.ReleaseNotes

open Python

/-- A line that goes on with the one above. -/
def continues (line : Text) : Bool := !isBullet line && !isBlank line

/-- The lines up to the next bullet or blank line; the next heading is the end of the list. -/
def wrapped (rest : List Text) : List Text := rest.takeWhile continues

def belongs (line : Text) : Bool := isBlank line || isIndented line

/-- The indented blocks that stand there after a blank line. -/
def nested (rest : List Text) : List Text :=
  ((rest.dropWhile continues).takeWhile belongs).rdropWhile isBlank

/-- The bullets among the lines under a heading, by the grammar of `split_categories`. -/
def wholeBullets : List Text → List (List Text)
  | [] => []
  | line :: rest =>
    if isBullet line then (line :: (wrapped rest ++ nested rest)) :: wholeBullets rest else wholeBullets rest

/-- The bullets of a section, each whole, by category. -/
def wholeCategories (notes : Text) : List (Text × List (List Text)) :=
  (underHeading (splitlines notes)).2.map (fun c => (c.1, wholeBullets c.2))

/-- Every wrapped line is indented. -/
def WrapsIndented (lines : List Text) : Prop :=
  ∀ first rest, first :: rest <:+ lines → isBullet first = true → ∀ line ∈ wrapped rest, isIndented line = true

section

variable {lines rest : List Text} {line : Text}

/-! What the loop keeps of a bullet. -/

theorem not_belongs_of_isBullet (h : isBullet line = true) : belongs line = false := by
  have hblank := isBlank_of_isBullet h
  unfold isBullet at h
  split at h
  · cases h
  · rename_i c rest
    simp only [Bool.and_eq_true, decide_eq_true_eq] at h
    have hc : isIndented (c :: rest) = false := by
      cases h.1.1 with
      | inl heq => exact heq ▸ rfl
      | inr heq => exact heq ▸ rfl
    simp [belongs, hblank, hc]

/-- A bullet takes all that belongs to it, and the loop goes on as if it had none. -/
theorem bulletLines_takes (begun lines : List Text) :
    bulletLines (some begun) lines = (begun ++ lines.takeWhile belongs) :: bulletLines none lines := by
  induction lines generalizing begun with
  | nil =>
    rw [List.takeWhile_nil, List.append_nil]
    rfl
  | cons line rest ih =>
    by_cases hbullet : isBullet line = true
    · rw [bulletLines_bullet hbullet, bulletLines_bullet hbullet,
        List.takeWhile_cons_of_neg (by simp [not_belongs_of_isBullet hbullet]), List.append_nil]
      rfl
    · rw [bulletLines_some hbullet, bulletLines_none hbullet]
      by_cases hbelongs : (isBlank line || isIndented line) = true
      · rw [if_pos hbelongs, ih, List.takeWhile_cons_of_pos (p := belongs) hbelongs, List.append_assoc, List.singleton_append]
      · rw [if_neg hbelongs, List.takeWhile_cons_of_neg (p := belongs) hbelongs, List.append_nil]

theorem bulletLines_cons (h : isBullet line = true) :
    bulletLines none (line :: rest) = (line :: rest.takeWhile belongs) :: bulletLines none rest := by
  rw [bulletLines_bullet h, bulletLines_takes]
  rfl

theorem wholeBullets_cons (h : isBullet line = true) :
    wholeBullets (line :: rest) = (line :: (wrapped rest ++ nested rest)) :: wholeBullets rest := by
  rw [wholeBullets, if_pos h]

theorem wholeBullets_skip (h : ¬ isBullet line = true) : wholeBullets (line :: rest) = wholeBullets rest := by
  rw [wholeBullets, if_neg h]

theorem wrapped_append_nested (rest : List Text) :
    wrapped rest ++ nested rest = (wrapped rest ++ (rest.dropWhile continues).takeWhile belongs).rdropWhile isBlank := by
  have htext : ∀ line ∈ wrapped rest, isBlank line = false := by
    intro line hline
    have hcontinues := List.mem_takeWhile_imp hline
    simp only [continues, Bool.and_eq_true, Bool.not_eq_true'] at hcontinues
    exact hcontinues.2
  unfold nested
  generalize wrapped rest = front at htext
  induction front with
  | nil => rfl
  | cons line front ih =>
    have hline := htext line List.mem_cons_self
    rw [List.cons_append, List.cons_append, rdropWhile_cons_of_text hline,
      ← ih (fun l hl => htext l (List.mem_cons_of_mem line hl))]

/-! When the loop keeps a bullet whole. -/

theorem wrapped_mem (h : line ∈ wrapped rest) : isBullet line = false ∧ isBlank line = false := by
  have hcontinues := List.mem_takeWhile_imp h
  simpa [continues] using hcontinues

theorem takeWhile_belongs (h : ∀ line ∈ wrapped rest, isIndented line = true) :
    rest.takeWhile belongs = wrapped rest ++ (rest.dropWhile continues).takeWhile belongs := by
  have hall : ∀ line ∈ wrapped rest, belongs line = true := by
    intro line hline
    simp [belongs, h line hline]
  conv_lhs => rw [← List.takeWhile_append_dropWhile (p := continues) (l := rest)]
  exact List.takeWhile_append_of_pos hall

theorem kept_whole_iff (hline : isBlank line = false) :
    (line :: rest.takeWhile belongs).rdropWhile isBlank = line :: (wrapped rest ++ nested rest) ↔
      ∀ line ∈ wrapped rest, isIndented line = true := by
  rw [rdropWhile_cons_of_text hline, List.cons.injEq, eq_self, true_and]
  constructor
  · intro heq l hl
    have hmem : l ∈ (rest.takeWhile belongs).rdropWhile isBlank := by
      rw [heq]
      exact List.mem_append_left _ hl
    have hbelongs := List.mem_takeWhile_imp ((List.rdropWhile_prefix _ _).subset hmem)
    simpa [belongs, (wrapped_mem hl).2] using hbelongs
  · intro h
    rw [takeWhile_belongs h, wrapped_append_nested]

theorem wrapsIndented_cons :
    WrapsIndented (line :: rest) ↔
      (isBullet line = true → ∀ l ∈ wrapped rest, isIndented l = true) ∧ WrapsIndented rest := by
  constructor
  · intro h
    exact ⟨fun hbullet => h line rest List.suffix_rfl hbullet,
      fun first more hsuffix => h first more (hsuffix.trans (List.suffix_cons line rest))⟩
  · rintro ⟨hfirst, hrest⟩ first more hsuffix hbullet
    cases List.suffix_cons_iff.mp hsuffix with
    | inl heq =>
      obtain ⟨rfl, rfl⟩ := List.cons.inj heq
      exact hfirst hbullet
    | inr hmem => exact hrest first more hmem hbullet

/-- The bullets the loop keeps are whole, if and only if all wrapped lines are indented. -/
theorem bulletLines_whole_iff (lines : List Text) :
    (bulletLines none lines).map (fun b => b.rdropWhile isBlank) = wholeBullets lines ↔ WrapsIndented lines := by
  induction lines with
  | nil =>
    refine iff_of_true rfl ?_
    intro first rest hsuffix
    exact absurd (List.suffix_nil.mp hsuffix) (List.cons_ne_nil first rest)
  | cons line rest ih =>
    rw [wrapsIndented_cons, ← ih]
    by_cases hbullet : isBullet line = true
    · rw [bulletLines_cons hbullet, wholeBullets_cons hbullet, List.map_cons, List.cons.injEq,
        kept_whole_iff (isBlank_of_isBullet hbullet)]
      simp [hbullet]
    · rw [bulletLines_none hbullet, wholeBullets_skip hbullet]
      simp [hbullet]

/-! As texts. -/

/-- Lines that are there again when they are joined and split. -/
structure Solid (lines : List Text) : Prop where
  each : ∀ line ∈ lines, IsLine line
  last : ∀ line ∈ lines.getLast?, line ≠ []

theorem Solid.of_rdropWhile (h : ∀ line ∈ lines, IsLine line) : Solid (lines.rdropWhile isBlank) where
  each line hline := h line ((List.rdropWhile_prefix _ _).subset hline)
  last := by
    rintro line hlast rfl
    have htext := getLast?_rdropWhile isBlank lines [] hlast
    cases htext

theorem map_joinLines_inj {bs cs : List (List Text)} (hb : ∀ b ∈ bs, Solid b) (hc : ∀ c ∈ cs, Solid c) :
    bs.map joinLines = cs.map joinLines ↔ bs = cs := by
  have hsplit : ∀ ls : List (List Text), (∀ l ∈ ls, Solid l) → (ls.map joinLines).map splitlines = ls := by
    intro ls h
    have hid : ∀ l ∈ ls, splitlines (joinLines l) = id l :=
      fun l hl => splitlines_joinLines (h l hl).each (h l hl).last
    rw [List.map_map]
    exact (List.map_congr_left hid).trans (List.map_id ls)
  constructor
  · intro heq
    rw [← hsplit bs hb, heq, hsplit cs hc]
  · exact fun heq => heq ▸ rfl

theorem mem_wholeBullets : ∀ b ∈ wholeBullets lines, ∃ first rest, first :: rest <:+ lines ∧
    isBullet first = true ∧ b = first :: (wrapped rest ++ nested rest) := by
  induction lines with
  | nil => exact fun b hb => absurd hb List.not_mem_nil
  | cons line rest ih =>
    intro b hb
    have hrest : b ∈ wholeBullets rest → ∃ first more, first :: more <:+ line :: rest ∧
        isBullet first = true ∧ b = first :: (wrapped more ++ nested more) := by
      intro hmem
      obtain ⟨first, more, hsuffix, hfound⟩ := ih b hmem
      exact ⟨first, more, hsuffix.trans (List.suffix_cons line rest), hfound⟩
    by_cases hbullet : isBullet line = true
    · rw [wholeBullets_cons hbullet] at hb
      cases List.mem_cons.mp hb with
      | inl heq => exact ⟨line, rest, List.suffix_rfl, hbullet, heq⟩
      | inr hmem => exact hrest hmem
    · rw [wholeBullets_skip hbullet] at hb
      exact hrest hb

theorem solid_wholeBullets (h : ∀ line ∈ lines, IsLine line) : ∀ b ∈ wholeBullets lines, Solid b := by
  intro b hb
  obtain ⟨first, rest, hsuffix, hbullet, rfl⟩ := mem_wholeBullets b hb
  rw [wrapped_append_nested, ← rdropWhile_cons_of_text (isBlank_of_isBullet hbullet)]
  apply Solid.of_rdropWhile
  intro line hline
  apply h line
  apply hsuffix.subset
  cases List.mem_cons.mp hline with
  | inl heq => exact heq ▸ List.mem_cons_self
  | inr hmem =>
    have hall := List.takeWhile_append_dropWhile (p := continues) (l := rest)
    rw [← hall]
    cases List.mem_append.mp hmem with
    | inl hwrapped => exact List.mem_cons_of_mem _ (List.mem_append_left _ hwrapped)
    | inr hnested =>
      exact List.mem_cons_of_mem _ (List.mem_append_right _ ((List.takeWhile_sublist _).subset hnested))

theorem solid_bulletLines (h : ∀ line ∈ lines, IsLine line) :
    ∀ b ∈ (bulletLines none lines).map (fun b => b.rdropWhile isBlank), Solid b := by
  intro b hb
  obtain ⟨b, hmem, rfl⟩ := List.mem_map.mp hb
  apply Solid.of_rdropWhile
  intro line hline
  cases mem_of_mem_bulletLines none lines b hmem line hline with
  | inl hnone => exact absurd hnone List.not_mem_nil
  | inr hline => exact h line hline

theorem bulletTexts_iff (h : ∀ line ∈ lines, IsLine line) :
    (bulletLines none lines).map bulletText = (wholeBullets lines).map joinLines ↔ WrapsIndented lines := by
  have hmap : (bulletLines none lines).map bulletText =
      ((bulletLines none lines).map (fun b => b.rdropWhile isBlank)).map joinLines := by
    rw [List.map_map]
    rfl
  rw [hmap, map_joinLines_inj (solid_bulletLines h) (solid_wholeBullets h), bulletLines_whole_iff]

end

section

variable {casefold : Text → Text} {notes : Text}

theorem isLine_underHeading {c : Text × List Text} (h : c ∈ (underHeading (splitlines notes)).2) :
    ∀ line ∈ c.2, IsLine line := by
  intro line hline
  exact isLine_of_mem_splitlines notes line ((mem_underHeading c h).2 line hline).1

theorem splitCategories_whole_iff :
    (splitCategories notes).2 = (wholeCategories notes).map (fun c => (c.1, c.2.map joinLines)) ↔
      ∀ c ∈ (underHeading (splitlines notes)).2, WrapsIndented c.2 := by
  have hwhole : (wholeCategories notes).map (fun c => (c.1, c.2.map joinLines)) =
      (underHeading (splitlines notes)).2.map (fun c => (c.1, (wholeBullets c.2).map joinLines)) := by
    unfold wholeCategories
    rw [List.map_map]
    rfl
  rw [splitCategories_eq, hwhole, List.map_inj_left]
  constructor
  · intro h c hc
    have hpair := h c hc
    exact (bulletTexts_iff (isLine_underHeading hc)).mp (Prod.mk.inj hpair).2
  · intro h c hc
    exact Prod.ext rfl ((bulletTexts_iff (isLine_underHeading hc)).mpr (h c hc))

/-! The marked bullets. -/

/-- A marker stands at the end of the last line. -/
def EndsMarked (b : List Text) : Prop :=
  ∃ before mark after, b.getLast? = some (before ++ mark) ∧ marker mark = some after ∧ isBlank after = true

theorem suffix_joinLines {b : List Text} {last : Text} (h : b.getLast? = some last) : last <:+ joinLines b := by
  induction b with
  | nil => cases h
  | cons line rest ih =>
    cases rest with
    | nil =>
      rw [List.getLast?_singleton] at h
      exact Option.some.inj h ▸ List.suffix_rfl
    | cons other rest =>
      rw [List.getLast?_cons_cons] at h
      rw [joinLines_cons (List.cons_ne_nil other rest)]
      exact (ih h).trans ((List.suffix_cons _ _).trans (List.suffix_append _ _))

theorem EndsMarked.hasMarker {b : List Text} (h : EndsMarked b) : hasMarker (joinLines b) = true := by
  obtain ⟨before, mark, after, hlast, hmark, -⟩ := h
  unfold ReleaseNotes.hasMarker
  rw [List.any_eq_true]
  refine ⟨mark, (List.mem_tails _ _).mpr ((List.suffix_append _ _).trans (suffix_joinLines hlast)), ?_⟩
  rw [hmark]
  rfl

theorem exists_bulletLines (h : ∀ c ∈ (underHeading (splitlines notes)).2, WrapsIndented c.2)
    {c : Text × List (List Text)} (hc : c ∈ wholeCategories notes) {b : List Text} (hb : b ∈ c.2) :
    ∃ source ∈ categoryLines notes, source.1 = c.1 ∧ ∃ kept ∈ source.2, kept.rdropWhile isBlank = b := by
  obtain ⟨under, hunder, rfl⟩ := List.mem_map.mp hc
  refine ⟨(under.1, bulletLines none under.2), List.mem_map.mpr ⟨under, hunder, rfl⟩, rfl, ?_⟩
  have hwhole := (bulletLines_whole_iff under.2).mpr (h under hunder)
  have hmem : b ∈ (bulletLines none under.2).map (fun b => b.rdropWhile isBlank) := by
    rw [hwhole]
    exact hb
  exact List.mem_map.mp hmem

theorem mem_markedLines_of_marked {source : Text × List (List Text)} (hsource : source ∈ categoryLines notes)
    (hname : isAction casefold source.1 = false) {kept : List Text} (hkept : kept ∈ source.2)
    (hmarked : hasMarker (bulletText kept) = true) :
    ∃ c ∈ markedLines casefold notes, c.1 = source.1 ∧ kept ∈ c.2 := by
  have hmem : kept ∈ source.2.filter (fun b => hasMarker (bulletText b)) := List.mem_filter.mpr ⟨hkept, hmarked⟩
  refine ⟨(source.1, source.2.filter (fun b => hasMarker (bulletText b))), ?_, rfl, hmem⟩
  refine List.mem_filterMap.mpr ⟨source, hsource, ?_⟩
  unfold markedOf
  simp only [hname, Bool.false_eq_true, if_false]
  exact if_neg (List.ne_nil_of_mem hmem)

theorem exists_markedLines (h : ∀ c ∈ (underHeading (splitlines notes)).2, WrapsIndented c.2)
    {c : Text × List (List Text)} (hc : c ∈ wholeCategories notes) (hname : isAction casefold c.1 = false)
    {b : List Text} (hb : b ∈ c.2) (hends : EndsMarked b) :
    ∃ m ∈ markedLines casefold notes, m.1 = c.1 ∧ ∃ kept ∈ m.2, kept.rdropWhile isBlank = b := by
  obtain ⟨source, hsource, hsame, kept, hkept, rfl⟩ := exists_bulletLines h hc hb
  obtain ⟨m, hm, hmname, hmem⟩ := mem_markedLines_of_marked hsource (hsame ▸ hname) hkept hends.hasMarker
  exact ⟨m, hm, hmname.trans hsame, kept, hmem, rfl⟩

/-! Whole in the note. -/

/-- A line no marker goes on in. -/
def Begins (line : Text) : Prop :=
  ∃ c d rest, line = c :: d :: rest ∧ isWhitespace c = false ∧ c ≠ CodePoint.ofChar 's' ∧
    (c = CodePoint.ofChar '-' → d ≠ CodePoint.ofChar '-')

/-- The first line with text is such a line. -/
def Sealed (lines : List Text) : Prop := ∀ line ∈ (written lines).head?, Begins line

theorem begins_of_isBullet {line : Text} (h : isBullet line = true) : Begins line := by
  unfold isBullet at h
  split at h
  · cases h
  · rename_i c rest
    simp only [Bool.and_eq_true, decide_eq_true_eq] at h
    obtain ⟨⟨hc, hspaces⟩, -⟩ := h
    cases rest with
    | nil => exact absurd rfl hspaces
    | cons d rest =>
      have hd : d = space := by
        by_contra hne
        exact hspaces (List.takeWhile_cons_of_neg (by simpa using hne))
      subst hd
      refine ⟨c, space, rest, rfl, ?_, ?_, fun _ => by decide⟩
      · cases hc with
        | inl heq => exact heq ▸ by decide
        | inr heq => exact heq ▸ by decide
      · cases hc with
        | inl heq => exact heq ▸ by decide
        | inr heq => exact heq ▸ by decide

theorem begins_heading (name : Text) : Begins (text "### " ++ name) :=
  ⟨CodePoint.ofChar '#', CodePoint.ofChar '#', CodePoint.ofChar '#' :: space :: name, rfl, by decide, by decide,
    by decide⟩

theorem begins_changelogLine : Begins changelogLine :=
  ⟨CodePoint.ofChar 'E', CodePoint.ofChar 'v', changelogLine.drop 2, rfl, by decide, by decide, by decide⟩

theorem Begins.not_blank {line : Text} (h : Begins line) : isBlank line = false := by
  obtain ⟨c, d, rest, rfl, hc, -, -⟩ := h
  simp [isBlank, hc]

theorem sealed_begins {line : Text} (h : Begins line) (more : List Text) : Sealed (line :: more) := by
  intro first hfirst
  rw [written_cons_of_text h.not_blank] at hfirst
  exact Option.some.inj hfirst ▸ h

theorem sealed_blank {line : Text} {more : List Text} (hline : isBlank line = true) (h : Sealed more) :
    Sealed (line :: more) := by
  intro first hfirst
  rw [written_cons_of_blank hline] at hfirst
  exact h first hfirst

theorem Begins.apart {line : Text} (h : Begins line) (rest : Text) : Apart (line ++ rest) := by
  obtain ⟨c, d, more, rfl, hc, hword, hclose⟩ := h
  have hstart : (c :: d :: more ++ rest).dropWhile isWhitespace = c :: d :: (more ++ rest) :=
    List.dropWhile_cons_of_neg (by simp [hc])
  constructor
  · rw [hstart]
    show removePrefix (CodePoint.ofChar 's' :: text "hort") _ = none
    rw [removePrefix_cons, if_neg (Ne.symm hword)]
  · rw [hstart]
    show removePrefix (CodePoint.ofChar '-' :: CodePoint.ofChar '-' :: text ">") _ = none
    rw [removePrefix_cons, removePrefix_cons]
    by_cases heq : CodePoint.ofChar '-' = c
    · rw [if_pos heq, if_neg (Ne.symm (hclose heq.symm))]
    · rw [if_neg heq]

theorem apart_joinLines {lines : List Text} (h : Sealed lines) : Apart (joinLines lines) := by
  induction lines with
  | nil => exact ⟨by decide, by decide⟩
  | cons line rest ih =>
    by_cases hblank : isBlank line = true
    · have hrest : Sealed rest := by
        intro first hfirst
        apply h first
        rw [written_cons_of_blank hblank]
        exact hfirst
      have hskip : ∀ more : Text, (line ++ more).dropWhile isWhitespace = more.dropWhile isWhitespace :=
        fun more => List.dropWhile_append_of_pos (List.all_eq_true.mp hblank)
      cases rest with
      | nil =>
        have hnil : line.dropWhile isWhitespace = [] := by
          have hend := hskip []
          rwa [List.append_nil] at hend
        constructor
        · rw [joinLines, hnil]
          decide
        · rw [joinLines, hnil]
          decide
      | cons other rest =>
        have hsame : (joinLines (line :: other :: rest)).dropWhile isWhitespace =
            (joinLines (other :: rest)).dropWhile isWhitespace := by
          rw [joinLines, hskip]
          exact List.dropWhile_cons_of_pos (by decide)
        exact ⟨hsame ▸ (ih hrest).word, hsame ▸ (ih hrest).close⟩
    · have hline : Begins line := by
        apply h line
        rw [written_cons_of_text (by simpa using hblank)]
        rfl
      cases rest with
      | nil =>
        have happart := hline.apart []
        rwa [List.append_nil] at happart
      | cons other rest => exact hline.apart _

theorem sealed_flatMap {cs : List (Text × List (List Text))} {more : List Text} (h : Sealed more) :
    Sealed ((cs.flatMap partLines).flatten ++ more) := by
  cases cs with
  | nil => exact h
  | cons c rest =>
    rw [List.flatMap_cons, List.flatten_append, List.append_assoc]
    exact sealed_begins (begins_heading c.1) _

theorem exists_place {cs : List (Text × List (List Text))} (hcs : ∀ c ∈ cs, IsBlock c) {more : List Text}
    (hmore : Sealed more) {c : Text × List (List Text)} (hc : c ∈ cs) {b : List Text} (hb : b ∈ c.2) :
    ∃ front back, (cs.flatMap partLines).flatten ++ more = front ++ (b.rdropWhile isBlank ++ back) ∧
      front ≠ [] ∧ back ≠ [] ∧ Sealed (b.rdropWhile isBlank ++ back) ∧ Sealed back := by
  obtain ⟨older, newer, rfl⟩ := List.append_of_mem hc
  obtain ⟨name, bullets⟩ := c
  have hblock : IsBlock (name, bullets) := hcs _ hc
  obtain ⟨above, below, rfl⟩ := List.append_of_mem hb
  have hbegins : ∀ b' ∈ above ++ b :: below, ∀ rest, Sealed (b'.rdropWhile isBlank ++ rest) := by
    intro b' hb' rest
    obtain ⟨⟨first, tail, rfl, hbullet⟩, -⟩ := hblock.2 b' hb'
    rw [rdropWhile_cons_of_text (isBlank_of_isBullet hbullet), List.cons_append]
    exact sealed_begins (begins_of_isBullet hbullet) _
  have hback : Sealed ((below.map (fun b => b.rdropWhile isBlank)).flatten ++
      [] :: ((newer.flatMap partLines).flatten ++ more)) := by
    cases below with
    | nil => exact sealed_blank rfl (sealed_flatMap hmore)
    | cons next below =>
      rw [List.map_cons, List.flatten_cons, List.append_assoc]
      exact hbegins next (by simp) _
  refine ⟨(older.flatMap partLines).flatten ++ (text "### " ++ name) ::
      [] :: (above.map (fun b => b.rdropWhile isBlank)).flatten,
    (below.map (fun b => b.rdropWhile isBlank)).flatten ++ [] :: ((newer.flatMap partLines).flatten ++ more),
    ?_, by simp, by simp, hbegins b hb _, hback⟩
  simp [partLines]

/-- The text stands in the note as whole lines, without its markers. -/
def Shows (note t : Text) : Prop :=
  ∃ front back, note = front ++ newline :: (stripMarkers t ++ newline :: back)

theorem shows_of_place {front b back : List Text} (hfront : front ≠ []) (hb : b ≠ []) (hback : back ≠ [])
    (hsealed : Sealed (b ++ back)) (hrest : Sealed back) :
    Shows (stripMarkers (joinLines (front ++ (b ++ back)))) (joinLines b) := by
  have hjoin := joinLines_append hb hback
  have hapart := apart_joinLines hsealed
  rw [hjoin] at hapart
  refine ⟨stripMarkers (joinLines front), stripMarkers (joinLines back), ?_⟩
  rw [joinLines_append hfront (List.append_ne_nil_of_left_ne_nil hb back), hjoin,
    stripMarkers_append_newline hapart, stripMarkers_append_newline (apart_joinLines hrest)]

theorem shows_shortText {c : Text × List (List Text)} (hc : c ∈ actionLines casefold notes ∨ c ∈ markedLines casefold notes)
    {b : List Text} (hb : b ∈ c.2) :
    Shows (stripMarkers (shortText casefold notes)) (joinLines (b.rdropWhile isBlank)) := by
  have hchangelog : Sealed [changelogLine] := sealed_begins begins_changelogLine []
  have hne : ∀ block : Text × List (List Text), IsBlock block → ∀ b ∈ block.2, b.rdropWhile isBlank ≠ [] := by
    intro block hblock b hb
    obtain ⟨⟨first, rest, rfl, hbullet⟩, -⟩ := hblock.2 b hb
    rw [rdropWhile_cons_of_text (isBlank_of_isBullet hbullet)]
    exact List.cons_ne_nil _ _
  rw [shortText_eq]
  unfold shortLines
  cases hc with
  | inl haction =>
    obtain ⟨front, back, hplace, hfront, hback, hsealed, hrest⟩ :=
      exists_place blocks_actionLines (sealed_flatMap hchangelog) haction hb
    rw [hplace, ← List.append_assoc]
    exact shows_of_place (List.append_ne_nil_of_right_ne_nil _ hfront)
      (hne c (blocks_actionLines c haction) b hb) hback hsealed hrest
  | inr hmarked =>
    obtain ⟨front, back, hplace, hfront, hback, hsealed, hrest⟩ :=
      exists_place blocks_markedLines hchangelog hmarked hb
    rw [hplace, ← List.append_assoc, ← List.append_assoc]
    exact shows_of_place (List.append_ne_nil_of_right_ne_nil _ hfront)
      (hne c (blocks_markedLines c hmarked) b hb) hback hsealed hrest

end

/-- Bullets stay whole: `split_categories` gives each as the grammar has it, and one with a
marker at its end counts, outside Action required, and is whole in the short note. -/
structure StaysWhole (casefold : Text → Text) (notes : Text) : Prop where
  bullets : (splitCategories notes).2 = (wholeCategories notes).map (fun c => (c.1, c.2.map joinLines))
  counted : ∀ c ∈ wholeCategories notes, isAction casefold c.1 = false → ∀ b ∈ c.2, EndsMarked b →
    (∃ m ∈ markedBullets casefold notes, m.1 = c.1 ∧ joinLines b ∈ m.2) ∧
      ∀ version, ∃ note, buildShort casefold notes version = .ok note
  shown : ∀ c ∈ wholeCategories notes, ∀ b ∈ c.2, EndsMarked b → ∀ version note,
    buildShort casefold notes version = .ok note → Shows note (joinLines b)

/-- Bullets stay whole if and only if every wrapped line is indented. -/
theorem wrapped_bullets_whole (casefold : Text → Text) (notes : Text) :
    StaysWhole casefold notes ↔ ∀ c ∈ (underHeading (splitlines notes)).2, WrapsIndented c.2 := by
  constructor
  · intro h
    exact splitCategories_whole_iff.mp h.bullets
  · intro h
    refine ⟨splitCategories_whole_iff.mpr h, ?_, ?_⟩
    · intro c hc hname b hb hends
      obtain ⟨m, hm, hmname, kept, hkept, rfl⟩ := exists_markedLines h hc hname hb hends
      have hcounted : joined m ∈ markedBullets casefold notes := by
        rw [markedBullets_eq]
        exact List.mem_map.mpr ⟨m, hm, rfl⟩
      refine ⟨⟨joined m, hcounted, hmname, List.mem_map.mpr ⟨kept, hkept, rfl⟩⟩, fun version => ?_⟩
      exact ⟨_, buildShort_ok.mpr ⟨List.ne_nil_of_mem hcounted, rfl⟩⟩
    · intro c hc b hb hends version note hnote
      rw [(buildShort_ok.mp hnote).2]
      by_cases hname : isAction casefold c.1 = true
      · obtain ⟨source, hsource, hsame, kept, hkept, rfl⟩ := exists_bulletLines h hc hb
        have haction : source ∈ actionLines casefold notes := by
          refine List.mem_filter.mpr ⟨hsource, ?_⟩
          simp [hsame, hname, List.ne_nil_of_mem hkept]
        exact shows_shortText (.inl haction) hkept
      · obtain ⟨m, hm, -, kept, hkept, rfl⟩ := exists_markedLines h hc (by simpa using hname) hb hends
        exact shows_shortText (.inr hm) hkept

/-! A bullet that is wrapped without an indent. -/

def wrappedNotes : Text :=
  joinLines [text "### Bug fixes", [], text "- A fix that", text "wraps <!--short-->"]

/-- The bullet has lost its last line, and its marker with it. -/
theorem wrapped_bullet_cut :
    splitCategories wrappedNotes = ([], [(text "Bug fixes", [text "- A fix that"])]) ∧
      markedBullets foldAscii wrappedNotes = [] ∧
      buildShort foldAscii wrappedNotes (text "1.0.0") = .error (.unmarked (text "1.0.0")) ∧
      ¬ StaysWhole foldAscii wrappedNotes := by
  have hsplit : splitCategories wrappedNotes = ([], [(text "Bug fixes", [text "- A fix that"])]) := by
    decide +kernel
  have hwhole : wholeCategories wrappedNotes =
      [(text "Bug fixes", [[text "- A fix that", text "wraps <!--short-->"]])] := by decide +kernel
  have hmarked : markedBullets foldAscii wrappedNotes = [] := by decide +kernel
  refine ⟨hsplit, hmarked, if_pos hmarked, fun h => ?_⟩
  have hbullets := h.bullets
  rw [hsplit, hwhole] at hbullets
  exact absurd hbullets (by decide +kernel)

end OnestiLock.ReleaseNotes
