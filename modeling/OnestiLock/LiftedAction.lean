import OnestiLock.NoteSteps

/-! `lift_action` moves one block: the first `### Action required` in front of the
other categories. -/

namespace OnestiLock.ReleaseNotes

open Python

section

variable {lines more : List Text}

theorem headed_dropWhile (lines : List Text) : Headed (lines.dropWhile (fun line => !isHeading line)) := by
  intro line hline
  have hnot := List.head?_dropWhile_not (fun line => !isHeading line) lines
  rw [hline] at hnot
  simpa using hnot

theorem headed_append (h : Headed lines) (hne : lines ≠ []) : Headed (lines ++ more) := by
  cases lines with
  | nil => exact absurd rfl hne
  | cons line rest => exact fun l hl => h l hl

theorem headed_of_prefix (h : Headed lines) (hfront : more <+: lines) : Headed more := by
  obtain ⟨rest, rfl⟩ := hfront
  cases more with
  | nil => exact nofun
  | cons line more => exact fun l hl => h l hl

theorem mem_takeWhile_not {p : Text → Bool} : ∀ line ∈ lines.takeWhile (fun l => !p l), p line = false := by
  intro line hline
  simpa using List.mem_takeWhile_imp hline

/-- Where the lines with `p` start, both parts of a cut are there again. -/
theorem cut_again {p : Text → Bool} (h : ∀ line ∈ lines, p line = false) (hmore : ∀ line ∈ more.head?, p line = true) :
    (lines ++ more).takeWhile (fun l => !p l) = lines ∧ (lines ++ more).dropWhile (fun l => !p l) = more := by
  have hplain : ∀ line ∈ lines, (!p line) = true := fun line hline => by simp [h line hline]
  rw [List.takeWhile_append_of_pos hplain, List.dropWhile_append_of_pos hplain]
  cases more with
  | nil => simp
  | cons line rest =>
    have hline : p line = true := hmore line rfl
    simp [hline]

theorem isHeading_of_isActionHeading {casefold : Text → Text} {line : Text}
    (h : isActionHeading casefold line = true) : isHeading line = true := by
  unfold isActionHeading at h
  unfold isHeading
  cases hname : category line with
  | none =>
    rw [hname] at h
    cases h
  | some name => rfl

theorem isBlank_of_isHeading {line : Text} (h : isHeading line = true) : isBlank line = false := by
  obtain ⟨name, hname⟩ := Option.isSome_iff_exists.mp h
  exact isBlank_of_category hname

/-! Blank lines at the ends. -/

theorem written_dropWhile_empty (lines : List Text) : written (lines.dropWhile (· = [])) = written lines := by
  induction lines with
  | nil => rfl
  | cons line rest ih =>
    by_cases hempty : line = []
    · subst hempty
      rw [List.dropWhile_cons_of_pos (by simp), ih, written_cons_of_blank rfl]
    · rw [List.dropWhile_cons_of_neg (by simpa using hempty)]

theorem written_eq_nil_iff : written lines = [] ↔ lines.all isBlank = true := by
  unfold written
  rw [List.filter_eq_nil_iff, List.all_eq_true]
  simp

theorem written_rdropWhile_blank (lines : List Text) : written (lines.rdropWhile isBlank) = written lines :=
  written_rdropWhile (fun _ hblank => hblank) lines

theorem splitlines_strip_join (h : ∀ line ∈ lines, IsLine line) :
    splitlines (stripNewlines (joinLines lines)) = trimLines lines := by
  rw [stripNewlines_joinLines (fun line hline => (h line hline).newline_not_mem)]
  apply splitlines_joinLines
  · intro line hline
    exact h line ((List.dropWhile_sublist _).subset ((List.rdropWhile_prefix _ _).subset hline))
  · intro line hline
    simpa using getLast?_rdropWhile _ _ line hline

theorem rdropWhile_append_of_text {front : List Text} (h : lines.rdropWhile isBlank ≠ []) :
    (front ++ lines.rdropWhile isBlank).rdropWhile (· = []) = front ++ lines.rdropWhile isBlank := by
  rw [List.rdropWhile_eq_self_iff]
  intro hne
  have hlast := List.rdropWhile_last_not isBlank lines h
  rw [List.getLast_append_of_right_ne_nil _ _ h]
  intro hempty
  rw [of_decide_eq_true hempty] at hlast
  exact hlast rfl

end

/-- The lines of a section around its first category named Action required: the lead,
the categories before it, its heading with what is under it, and those after it. -/
structure ActionCut (casefold : Text → Text) (lines : List Text) where
  lead : List Text
  before : List Text
  heading : Text
  under : List Text
  after : List Text
  eq_lines : lead ++ (before ++ heading :: (under ++ after)) = lines
  lead_plain : ∀ line ∈ lead, isHeading line = false
  before_headed : Headed before
  before_other : ∀ line ∈ before, isActionHeading casefold line = false
  is_action : isActionHeading casefold heading = true
  under_plain : ∀ line ∈ under, isHeading line = false
  after_headed : Headed after

namespace ActionCut

variable {casefold : Text → Text} {lines more : List Text} {t version : Text}

def block (cut : ActionCut casefold lines) : List Text := cut.heading :: cut.under

def others (cut : ActionCut casefold lines) : List Text := cut.before ++ cut.after

/-- What `lift_action` joins. -/
def moved (cut : ActionCut casefold lines) : List Text :=
  cut.lead ++ cut.block.rdropWhile isBlank ++ [[]] ++ cut.others.rdropWhile isBlank

theorem exists_cut (h : ∃ line ∈ lines, isActionHeading casefold line = true) :
    Nonempty (ActionCut casefold lines) := by
  obtain ⟨line, hline, haction⟩ := h
  have hlines := List.takeWhile_append_dropWhile (p := fun l => !isHeading l) (l := lines)
  have hrest := List.takeWhile_append_dropWhile (p := fun l => !isActionHeading casefold l)
    (l := lines.dropWhile (fun l => !isHeading l))
  have hmem : line ∈ lines.dropWhile (fun l => !isHeading l) := by
    rw [← hlines] at hline
    cases List.mem_append.mp hline with
    | inl hlead =>
      have hplain := mem_takeWhile_not line hlead
      rw [isHeading_of_isActionHeading haction] at hplain
      cases hplain
    | inr hmem => exact hmem
  cases hfound : (lines.dropWhile (fun l => !isHeading l)).dropWhile (fun l => !isActionHeading casefold l) with
  | nil =>
    have hnone := List.dropWhile_eq_nil_iff.mp hfound line hmem
    rw [haction] at hnone
    cases hnone
  | cons heading tail =>
    have hheading := List.head?_dropWhile_not (fun l => !isActionHeading casefold l)
      (lines.dropWhile (fun l => !isHeading l))
    rw [hfound] at hheading
    have htail := List.takeWhile_append_dropWhile (p := fun l => !isHeading l) (l := tail)
    have hbefore : Headed ((lines.dropWhile (fun l => !isHeading l)).takeWhile
        (fun l => !isActionHeading casefold l)) :=
      headed_of_prefix (headed_dropWhile lines) (List.takeWhile_prefix _)
    have heq : lines.takeWhile (fun l => !isHeading l) ++
        ((lines.dropWhile (fun l => !isHeading l)).takeWhile (fun l => !isActionHeading casefold l) ++
          heading :: (tail.takeWhile (fun l => !isHeading l) ++ tail.dropWhile (fun l => !isHeading l))) = lines := by
      rw [htail, ← hfound, hrest, hlines]
    exact ⟨⟨_, _, heading, _, _, heq, mem_takeWhile_not, hbefore, mem_takeWhile_not, by simpa using hheading,
      mem_takeWhile_not, headed_dropWhile tail⟩⟩

theorem liftAction_eq (cut : ActionCut casefold (splitlines t)) :
    liftAction casefold t version =
      if cut.under.all isBlank then .error (.emptyAction version (strip cut.heading))
      else if cut.before = [] then .ok t
      else .ok (stripNewlines (joinLines cut.moved)) := by
  have hheading : isHeading cut.heading = true := isHeading_of_isActionHeading cut.is_action
  have hrest : ∀ line ∈ (cut.before ++ (cut.heading :: (cut.under ++ cut.after))).head?, isHeading line = true := by
    intro line hline
    cases hbefore : cut.before with
    | nil =>
      rw [hbefore] at hline
      exact Option.some.inj hline ▸ hheading
    | cons first others =>
      apply cut.before_headed line
      rw [hbefore] at hline ⊢
      exact hline
  have hfound : ∀ line ∈ (cut.heading :: (cut.under ++ cut.after)).head?, isActionHeading casefold line = true := by
    intro line hline
    exact Option.some.inj hline ▸ cut.is_action
  have hlead := cut_again cut.lead_plain hrest
  have hbefore := cut_again cut.before_other hfound
  have hunder := cut_again cut.under_plain cut.after_headed
  unfold liftAction
  simp only [← cut.eq_lines, hlead.1, hlead.2, hbefore.1, hbefore.2, hunder.1, hunder.2]
  rfl

theorem liftAction_of_none (h : ∀ line ∈ splitlines t, isActionHeading casefold line = false) :
    liftAction casefold t version = .ok t := by
  have hnone : ((splitlines t).dropWhile (fun l => !isHeading l)).dropWhile
      (fun l => !isActionHeading casefold l) = [] := by
    rw [List.dropWhile_eq_nil_iff]
    intro line hline
    rw [h line ((List.dropWhile_sublist _).subset hline)]
    rfl
  unfold liftAction
  simp only [hnone]

/-- The block is in front of all other categories. But for blank lines at the ends it,
the lead and the others are as they were. -/
structure Moved (cut : ActionCut casefold lines) (after : ActionCut casefold more) : Prop where
  first : after.before = []
  lead : after.lead.dropWhile (· = []) = cut.lead.dropWhile (· = [])
  block : after.block.rdropWhile isBlank = cut.block.rdropWhile isBlank
  others : after.others.rdropWhile isBlank = cut.others.rdropWhile isBlank

theorem Moved.written_lead {cut : ActionCut casefold lines} {after : ActionCut casefold more}
    (h : cut.Moved after) : written after.lead = written cut.lead := by
  rw [← written_dropWhile_empty after.lead, h.lead, written_dropWhile_empty]

theorem Moved.written_block {cut : ActionCut casefold lines} {after : ActionCut casefold more}
    (h : cut.Moved after) : written after.block = written cut.block := by
  rw [← written_rdropWhile_blank after.block, h.block, written_rdropWhile_blank]

theorem Moved.written_others {cut : ActionCut casefold lines} {after : ActionCut casefold more}
    (h : cut.Moved after) : written after.others = written cut.others := by
  rw [← written_rdropWhile_blank after.others, h.others, written_rdropWhile_blank]

theorem written_eq (cut : ActionCut casefold lines) :
    written lines = written cut.lead ++ (written cut.before ++ (written cut.block ++ written cut.after)) := by
  conv_lhs => rw [← cut.eq_lines]
  rw [← List.cons_append, written_append, written_append, written_append]
  rfl

theorem Moved.perm {cut : ActionCut casefold lines} {after : ActionCut casefold more} (h : cut.Moved after) :
    (written more).Perm (written lines) := by
  have hothers : written after.after = written cut.before ++ written cut.after := by
    have hall := h.written_others
    rw [ActionCut.others, ActionCut.others, h.first, List.nil_append, written_append] at hall
    exact hall
  have hnone : written after.before = [] := by
    rw [h.first]
    rfl
  rw [after.written_eq, cut.written_eq, hnone, List.nil_append, h.written_lead, h.written_block, hothers]
  apply List.Perm.append_left
  rw [← List.append_assoc, ← List.append_assoc]
  exact List.Perm.append_right _ List.perm_append_comm

theorem isBlank_heading (cut : ActionCut casefold lines) : isBlank cut.heading = false :=
  isBlank_of_isHeading (isHeading_of_isActionHeading cut.is_action)

theorem rdropWhile_block (cut : ActionCut casefold lines) :
    cut.block.rdropWhile isBlank = cut.heading :: cut.under.rdropWhile isBlank :=
  rdropWhile_cons_of_text cut.isBlank_heading cut.under

theorem mem_lines (cut : ActionCut casefold lines) {line : Text}
    (h : line ∈ cut.lead ∨ line ∈ cut.block ∨ line ∈ cut.others) : line ∈ lines := by
  rw [← cut.eq_lines]
  simp only [block, others, List.mem_cons, List.mem_append] at h ⊢
  tauto

theorem isLine_moved (cut : ActionCut casefold (splitlines t)) : ∀ line ∈ cut.moved, IsLine line := by
  have hsection := isLine_of_mem_splitlines t
  intro line hline
  simp only [moved, List.mem_append, List.mem_singleton] at hline
  rcases hline with ((hlead | hblock) | rfl) | hothers
  · exact hsection line (cut.mem_lines (.inl hlead))
  · exact hsection line (cut.mem_lines (.inr (.inl ((List.rdropWhile_prefix _ _).subset hblock))))
  · exact isLine_nil
  · exact hsection line (cut.mem_lines (.inr (.inr ((List.rdropWhile_prefix _ _).subset hothers))))

theorem rdropWhile_others_ne_nil (cut : ActionCut casefold lines) (hne : cut.before ≠ []) :
    cut.others.rdropWhile isBlank ≠ [] := by
  intro hnil
  rw [List.rdropWhile_eq_nil_iff] at hnil
  cases hbefore : cut.before with
  | nil => exact hne hbefore
  | cons first rest =>
    have hfirst : isHeading first = true := cut.before_headed first (by rw [hbefore]; rfl)
    have hblank := hnil first (by simp [others, hbefore])
    rw [isBlank_of_isHeading hfirst] at hblank
    cases hblank

theorem trimLines_moved (cut : ActionCut casefold lines) (hne : cut.before ≠ []) :
    trimLines cut.moved = cut.lead.dropWhile (· = []) ++
      cut.heading :: ((cut.under.rdropWhile isBlank ++ [[]]) ++ cut.others.rdropWhile isBlank) := by
  have hheading : ¬ cut.heading = [] := by
    intro hempty
    have htext := cut.isBlank_heading
    rw [hempty] at htext
    cases htext
  have hmoved : cut.moved = cut.lead ++
      cut.heading :: ((cut.under.rdropWhile isBlank ++ [[]]) ++ cut.others.rdropWhile isBlank) := by
    simp [moved, cut.rdropWhile_block]
  unfold trimLines
  rw [hmoved, dropWhile_append_stop (by simpa using hheading), ← List.cons_append, ← List.append_assoc]
  exact rdropWhile_append_of_text (cut.rdropWhile_others_ne_nil hne)

theorem exists_moved (cut : ActionCut casefold lines) (hne : cut.before ≠ []) :
    ∃ after : ActionCut casefold (trimLines cut.moved), cut.Moved after := by
  have hplain : ∀ line ∈ cut.under.rdropWhile isBlank ++ [[]], isHeading line = false := by
    intro line hline
    cases List.mem_append.mp hline with
    | inl hmem => exact cut.under_plain line ((List.rdropWhile_prefix _ _).subset hmem)
    | inr hempty =>
      rw [List.mem_singleton.mp hempty]
      rfl
  have hothers : Headed (cut.others.rdropWhile isBlank) :=
    headed_of_prefix (headed_append cut.before_headed hne) (List.rdropWhile_prefix _ _)
  have hlead : ∀ line ∈ cut.lead.dropWhile (· = []), isHeading line = false :=
    fun line hline => cut.lead_plain line ((List.dropWhile_sublist _).subset hline)
  refine ⟨⟨cut.lead.dropWhile (· = []), [], cut.heading, cut.under.rdropWhile isBlank ++ [[]],
    cut.others.rdropWhile isBlank, (cut.trimLines_moved hne).symm, hlead, nofun, nofun, cut.is_action, hplain,
    hothers⟩, ⟨rfl, ?_, ?_, ?_⟩⟩
  · exact List.dropWhile_idempotent _ _
  · rw [rdropWhile_block, rdropWhile_block, List.rdropWhile_concat_pos _ _ _ rfl, List.rdropWhile_idempotent]
  · exact List.rdropWhile_idempotent _ _

theorem liftAction_moved {lifted : Text} (cut : ActionCut casefold (splitlines t))
    (h : liftAction casefold t version = .ok lifted) :
    ∃ after : ActionCut casefold (splitlines lifted), cut.Moved after ∧ written after.under ≠ [] := by
  rw [cut.liftAction_eq] at h
  split at h
  · cases h
  · rename_i hunder
    have htext : written cut.under ≠ [] := fun hnil => hunder (written_eq_nil_iff.mp hnil)
    split at h
    · rename_i hfirst
      obtain rfl := Except.ok.inj h
      exact ⟨cut, ⟨hfirst, rfl, rfl, rfl⟩, htext⟩
    · rename_i hne
      obtain rfl := Except.ok.inj h
      rw [splitlines_strip_join cut.isLine_moved]
      obtain ⟨after, hmoved⟩ := cut.exists_moved hne
      refine ⟨after, hmoved, ?_⟩
      have hblock : after.heading :: after.under.rdropWhile isBlank = cut.heading :: cut.under.rdropWhile isBlank := by
        rw [← rdropWhile_block, ← rdropWhile_block, hmoved.block]
      rw [← written_rdropWhile_blank, (List.cons.inj hblock).2, written_rdropWhile_blank]
      exact htext

theorem liftAction_error_iff (h : ∃ line ∈ splitlines t, isActionHeading casefold line = true) (e : NoteError) :
    liftAction casefold t version = .error e ↔ ∃ cut : ActionCut casefold (splitlines t),
      written cut.under = [] ∧ e = .emptyAction version (strip cut.heading) := by
  constructor
  · intro herror
    obtain ⟨cut⟩ := exists_cut h
    rw [cut.liftAction_eq] at herror
    split at herror
    · rename_i hblank
      exact ⟨cut, written_eq_nil_iff.mpr hblank, (Except.error.inj herror).symm⟩
    · split at herror <;> cases herror
  · rintro ⟨cut, hblank, rfl⟩
    rw [cut.liftAction_eq, if_pos (written_eq_nil_iff.mp hblank)]

theorem liftAction_first (cut : ActionCut casefold (splitlines t)) (hfirst : cut.before = [])
    (htext : written cut.under ≠ []) : liftAction casefold t version = .ok t := by
  rw [cut.liftAction_eq, if_neg (fun hblank => htext (written_eq_nil_iff.mpr hblank)), if_pos hfirst]

end ActionCut

/-- `lift_action` moves one block. A section without it comes back as it is, and one with
nothing under the heading is refused. Lifted, the lines with text are a permutation, the
block is in front with the rest in order, and lifting again changes nothing. -/
theorem lift_moves_block (casefold : Text → Text) (t version : Text) :
    ((∀ line ∈ splitlines t, isActionHeading casefold line = false) → liftAction casefold t version = .ok t) ∧
    (∀ e, liftAction casefold t version = .error e ↔ ∃ cut : ActionCut casefold (splitlines t),
      written cut.under = [] ∧ e = .emptyAction version (strip cut.heading)) ∧
    ∀ lifted, liftAction casefold t version = .ok lifted →
      (written (splitlines lifted)).Perm (written (splitlines t)) ∧
      (∀ again, liftAction casefold lifted again = .ok lifted) ∧
      ∀ cut : ActionCut casefold (splitlines t), ∃ after : ActionCut casefold (splitlines lifted),
        cut.Moved after := by
  by_cases hnone : ∀ line ∈ splitlines t, isActionHeading casefold line = false
  · have hcut : ∀ cut : ActionCut casefold (splitlines t), False := by
      intro cut
      have hheading := hnone cut.heading (cut.mem_lines (.inr (.inl List.mem_cons_self)))
      rw [cut.is_action] at hheading
      cases hheading
    have hsame : ∀ again, liftAction casefold t again = .ok t := fun _ => ActionCut.liftAction_of_none hnone
    refine ⟨fun _ => hsame version, ?_, ?_⟩
    · intro e
      rw [hsame version]
      exact iff_of_false nofun (fun ⟨cut, _⟩ => hcut cut)
    · intro lifted h
      rw [hsame version] at h
      obtain rfl := Except.ok.inj h
      exact ⟨List.Perm.refl _, hsame, fun cut => (hcut cut).elim⟩
  · have hsome : ∃ line ∈ splitlines t, isActionHeading casefold line = true := by
      simpa using hnone
    refine ⟨fun h => absurd h hnone, ActionCut.liftAction_error_iff hsome, ?_⟩
    intro lifted h
    obtain ⟨cut⟩ := ActionCut.exists_cut hsome
    obtain ⟨after, hmoved, htext⟩ := cut.liftAction_moved h
    refine ⟨hmoved.perm, fun again => after.liftAction_first hmoved.first htext, ?_⟩
    intro other
    obtain ⟨last, hlast, -⟩ := other.liftAction_moved h
    exact ⟨last, hlast⟩

example : liftAction foldAscii
    (joinLines [text "### Bug fixes", text "- A fix", text "### ACTION required", text "- Restart."]) (text "1.0.0") =
      .ok (joinLines [text "### ACTION required", text "- Restart.", [], text "### Bug fixes", text "- A fix"]) := by
  decide +kernel

end OnestiLock.ReleaseNotes
