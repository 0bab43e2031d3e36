import OnestiLock.LiftedAction

/-! The steps a note shows under `### Action required`: the full note shows those of
its section, the short note those that stand in bullets. -/

namespace OnestiLock.ReleaseNotes

open Python

section

variable (casefold : Text → Text)

/-- The categories named Action required that have text, with their lines of text. -/
def actionUnder (lines : List Text) : List (Text × List Text) :=
  (underHeading (written lines)).2.filter (fun c => isAction casefold c.1 && decide (c.2 ≠ []))

def actionBlocks (t : Text) : List (Text × List Text) := actionUnder casefold (splitlines t)

def actionSteps (t : Text) : List Text := (actionBlocks casefold t).flatMap Prod.snd

end

section

variable {casefold : Text → Text} {lines more : List Text}

theorem actionUnder_eq :
    actionUnder casefold lines = ((underHeading lines).2.map (fun c => (c.1, written c.2))).filter
      (fun c => isAction casefold c.1 && decide (c.2 ≠ [])) := by
  unfold actionUnder
  rw [underHeading_written]

theorem actionUnder_of_written (h : written lines = written more) :
    actionUnder casefold lines = actionUnder casefold more := by
  unfold actionUnder
  rw [h]

theorem actionUnder_append (h : Headed more) :
    actionUnder casefold (lines ++ more) = actionUnder casefold lines ++ actionUnder casefold more := by
  rw [actionUnder_eq, underHeading_append h, List.map_append, List.filter_append, ← actionUnder_eq,
    ← actionUnder_eq]

theorem actionUnder_plain_append (h : ∀ line ∈ lines, isHeading line = false) :
    actionUnder casefold (lines ++ more) = actionUnder casefold more := by
  rw [actionUnder_eq, underHeading_plain_append h, ← actionUnder_eq]

theorem actionUnder_eq_nil (h : ∀ c ∈ (underHeading lines).2, isAction casefold c.1 = false) :
    actionUnder casefold lines = [] := by
  rw [actionUnder_eq, List.filter_eq_nil_iff]
  intro c hc
  obtain ⟨c', hc', rfl⟩ := List.mem_map.mp hc
  simp [h c' hc']

/-! The full note. -/

theorem isActionHeading_of_category {line name : Text} (h : category line = some name) :
    isActionHeading casefold line = isAction casefold name := by
  unfold isActionHeading
  rw [h]
  rfl

theorem actionUnder_other (h : ∀ line ∈ lines, isActionHeading casefold line = false) :
    actionUnder casefold lines = [] := by
  apply actionUnder_eq_nil
  intro c hc
  obtain ⟨⟨line, hline, hname⟩, -⟩ := mem_underHeading c hc
  rw [← isActionHeading_of_category hname]
  exact h line hline

theorem actionUnder_cut (cut : ActionCut casefold lines) :
    actionUnder casefold lines = actionUnder casefold cut.block ++ actionUnder casefold cut.others := by
  have hblock : Headed cut.block := by
    intro line hline
    exact Option.some.inj hline ▸ isHeading_of_isActionHeading cut.is_action
  have hrest : Headed (cut.block ++ cut.after) := headed_append hblock (List.cons_ne_nil cut.heading cut.under)
  have hbefore : actionUnder casefold cut.before = [] := actionUnder_other cut.before_other
  have hlines : actionUnder casefold lines =
      actionUnder casefold (cut.lead ++ (cut.before ++ (cut.block ++ cut.after))) :=
    congrArg (actionUnder casefold) cut.eq_lines.symm
  rw [hlines, actionUnder_plain_append cut.lead_plain, actionUnder_append hrest, hbefore, List.nil_append,
    actionUnder_append cut.after_headed, ActionCut.others, actionUnder_append cut.after_headed, hbefore,
    List.nil_append]

theorem actionBlocks_liftAction {t version lifted : Text} (h : liftAction casefold t version = .ok lifted) :
    actionBlocks casefold lifted = actionBlocks casefold t := by
  by_cases hnone : ∀ line ∈ splitlines t, isActionHeading casefold line = false
  · rw [ActionCut.liftAction_of_none hnone] at h
    rw [Except.ok.inj h]
  · have hsome : ∃ line ∈ splitlines t, isActionHeading casefold line = true := by simpa using hnone
    obtain ⟨cut⟩ := ActionCut.exists_cut hsome
    obtain ⟨after, hmoved, -⟩ := cut.liftAction_moved h
    unfold actionBlocks
    rw [actionUnder_cut after, actionUnder_cut cut, actionUnder_of_written hmoved.written_block,
      actionUnder_of_written hmoved.written_others]

/-! The short note. -/

theorem written_flatten_ne_nil {bullets : List (List Text)} (hne : bullets ≠ [])
    (h : ∀ b ∈ bullets, ∃ first rest, b = first :: rest ∧ isBullet first = true) :
    written bullets.flatten ≠ [] := by
  cases bullets with
  | nil => exact absurd rfl hne
  | cons b more =>
    obtain ⟨first, rest, rfl, hbullet⟩ := h b List.mem_cons_self
    rw [List.flatten_cons, List.cons_append, written_cons_of_text (isBlank_of_isBullet hbullet)]
    exact List.cons_ne_nil _ _

theorem headed_partLines {c : Text × List (List Text)} (h : IsBlock c) (more : List Text) :
    Headed ((partLines c).flatten ++ more) := by
  intro line hline
  rw [← Option.some.inj hline]
  unfold isHeading
  rw [h.1.again]
  rfl

theorem headed_flatMap_partLines {cs : List (Text × List (List Text))} (h : ∀ c ∈ cs, IsBlock c) :
    Headed (cs.flatMap partLines).flatten := by
  cases cs with
  | nil => exact nofun
  | cons c rest =>
    rw [List.flatMap_cons, List.flatten_append]
    exact headed_partLines (h c List.mem_cons_self) _

theorem actionUnder_partLines {c : Text × List (List Text)} (h : IsBlock c) (hname : isAction casefold c.1 = true)
    (hne : c.2 ≠ []) : actionUnder casefold (partLines c).flatten = [(c.1, written c.2.flatten)] := by
  have hbullets : ∀ line ∈ (c.2.map (fun b => b.rdropWhile isBlank)).flatten, isHeading line = false := by
    intro line hline
    obtain ⟨part, hpart, hmem⟩ := List.mem_flatten.mp hline
    obtain ⟨b, hb, rfl⟩ := List.mem_map.mp hpart
    exact ((h.2 b hb).2 line ((List.rdropWhile_prefix isBlank b).subset hmem)).2
  have hunder : ∀ line ∈ [] :: ((c.2.map (fun b => b.rdropWhile isBlank)).flatten ++ [[]]),
      isHeading line = false := by
    intro line hline
    simp only [List.mem_cons, List.mem_append, List.not_mem_nil, or_false] at hline
    rcases hline with rfl | hmem | rfl
    · rfl
    · exact hbullets line hmem
    · rfl
  have hlines : (partLines c).flatten = (text "### " ++ c.1) ::
      [] :: ((c.2.map (fun b => b.rdropWhile isBlank)).flatten ++ [[]]) := by
    simp [partLines]
  have htext : written ([] :: ((c.2.map (fun b => b.rdropWhile isBlank)).flatten ++ [[]])) =
      written c.2.flatten := by
    rw [written_cons_of_blank rfl, written_append, written_flatten_map]
    simp [written, isBlank]
  have hsome : written c.2.flatten ≠ [] := written_flatten_ne_nil hne (fun b hb => (h.2 b hb).1)
  rw [actionUnder_eq, hlines, underHeading_heading h.1.again, underHeading_of_plain hunder]
  simp [htext, hname, hsome]

theorem actionUnder_flatMap_partLines {cs : List (Text × List (List Text))}
    (h : ∀ c ∈ cs, IsBlock c ∧ isAction casefold c.1 = true ∧ c.2 ≠ []) :
    actionUnder casefold (cs.flatMap partLines).flatten = cs.map (fun c => (c.1, written c.2.flatten)) := by
  induction cs with
  | nil => rfl
  | cons c rest ih =>
    obtain ⟨hblock, hname, hne⟩ := h c List.mem_cons_self
    have hrest : ∀ d ∈ rest, IsBlock d ∧ isAction casefold d.1 = true ∧ d.2 ≠ [] :=
      fun d hd => h d (List.mem_cons_of_mem c hd)
    rw [List.flatMap_cons, List.flatten_append,
      actionUnder_append (headed_flatMap_partLines (fun d hd => (hrest d hd).1)),
      actionUnder_partLines hblock hname hne, ih hrest]
    rfl

theorem isHeading_changelogLine : isHeading changelogLine = false := by decide

theorem actionUnder_marked (notes : Text) :
    actionUnder casefold (((markedLines casefold notes).flatMap partLines).flatten ++ [changelogLine]) = [] := by
  have hplain : ∀ line : Text, isHeading line = false → isActionHeading casefold line = false := by
    intro line hline
    unfold isActionHeading
    rw [isHeading_eq_false_iff.mp hline]
    rfl
  apply actionUnder_other
  intro line hline
  rw [List.mem_append, List.mem_singleton] at hline
  rcases hline with hmarked | rfl
  · obtain ⟨part, hpart, hmem⟩ := List.mem_flatten.mp hmarked
    obtain ⟨c, hc, hcpart⟩ := List.mem_flatMap.mp hpart
    have hblock : IsBlock c := blocks_markedLines c hc
    simp only [partLines, List.mem_cons, List.mem_append, List.mem_map, List.not_mem_nil, or_false] at hcpart
    rcases hcpart with rfl | rfl | ⟨b, hb, rfl⟩ | rfl
    · rw [List.mem_singleton.mp hmem, isActionHeading_of_category hblock.1.again]
      exact (mem_markedLines hc).1
    · rw [List.mem_singleton.mp hmem]
      rfl
    · exact hplain line ((hblock.2 b hb).2 line ((List.rdropWhile_prefix isBlank b).subset hmem)).2
    · rw [List.mem_singleton.mp hmem]
      rfl
  · exact hplain changelogLine isHeading_changelogLine

theorem kept_ne_nil_iff (lines : List Text) : kept none lines ≠ [] ↔ bulletLines none lines ≠ [] := by
  constructor
  · intro hkept hnil
    apply hkept
    unfold kept
    rw [hnil]
    rfl
  · intro hne
    exact written_flatten_ne_nil hne (bulletLines_begin none lines nofun)

theorem actionBlocks_shortText {notes : Text} (hmarked : markedLines casefold notes ≠ []) :
    actionBlocks casefold (shortText casefold notes) =
      ((underHeading (splitlines notes)).2.map (fun c => (c.1, kept none c.2))).filter
        (fun c => isAction casefold c.1 && decide (c.2 ≠ [])) := by
  have hheaded : Headed (((markedLines casefold notes).flatMap partLines).flatten ++ [changelogLine]) := by
    cases hlines : markedLines casefold notes with
    | nil => exact absurd hlines hmarked
    | cons c rest =>
      have hblock : IsBlock c := blocks_markedLines c (by rw [hlines]; exact List.mem_cons_self)
      rw [List.flatMap_cons, List.flatten_append, List.append_assoc]
      exact headed_partLines hblock _
  have haction : ∀ c ∈ actionLines casefold notes, IsBlock c ∧ isAction casefold c.1 = true ∧ c.2 ≠ [] := by
    intro c hc
    have hcond := (List.mem_filter.mp hc).2
    simp only [Bool.and_eq_true, decide_eq_true_eq] at hcond
    exact ⟨blocks_actionLines c hc, hcond⟩
  have hlead : ∀ line ∈ (leadParts notes).flatten, isHeading line = false :=
    fun line hline => (mem_leadParts hline).2
  have hkeep : ∀ c : Text × List Text, (isAction casefold c.1 && decide (bulletLines none c.2 ≠ [])) =
      (isAction casefold c.1 && decide (kept none c.2 ≠ [])) := by
    intro c
    rw [decide_eq_decide.mpr (kept_ne_nil_iff c.2).symm]
  unfold actionBlocks
  rw [splitlines_shortText]
  unfold shortLines
  rw [actionUnder_plain_append hlead, actionUnder_append hheaded, actionUnder_marked, List.append_nil,
    actionUnder_flatMap_partLines haction]
  unfold actionLines categoryLines
  rw [List.filter_map, List.filter_map, List.map_map]
  simp only [Function.comp_def, hkeep]
  rfl

/-- The text of each category named Action required that has any, by what `keep` leaves of it. -/
theorem flatMap_filter_snd {U : List (Text × List Text)} (keep : List Text → List Text) :
    ((U.map (fun c => (c.1, keep c.2))).filter (fun c => isAction casefold c.1 && decide (c.2 ≠ []))).flatMap
        Prod.snd =
      (U.filter (fun c => isAction casefold c.1)).flatMap (fun c => keep c.2) := by
  induction U with
  | nil => rfl
  | cons c rest ih =>
    rw [List.map_cons]
    by_cases hname : isAction casefold c.1 = true
    · rw [List.filter_cons_of_pos (p := fun c : Text × List Text => isAction casefold c.1) hname, List.flatMap_cons, ← ih]
      by_cases hempty : keep c.2 = []
      · rw [List.filter_cons_of_neg (by simp [hempty]), hempty, List.nil_append]
      · rw [List.filter_cons_of_pos (by simp [hname, hempty]), List.flatMap_cons]
    · rw [List.filter_cons_of_neg (by simp [hname]), ih,
        List.filter_cons_of_neg (p := fun c : Text × List Text => isAction casefold c.1) hname]

/-- Where each part keeps some of its own, nothing is lost only if each part keeps all. -/
theorem eq_of_flatMap_sublist {U : List (Text × List Text)} {whole part : List Text → List Text}
    (hsome : ∀ lines, (part lines).Sublist (whole lines))
    (h : (U.flatMap (fun c => whole c.2)).Sublist (U.flatMap (fun c => part c.2))) :
    ∀ c ∈ U, part c.2 = whole c.2 := by
  have hall : ∀ rest : List (Text × List Text),
      (rest.flatMap (fun c => part c.2)).length ≤ (rest.flatMap (fun c => whole c.2)).length := by
    intro rest
    induction rest with
    | nil => exact Nat.le_refl 0
    | cons c rest ih =>
      have hc := (hsome c.2).length_le
      simp only [List.flatMap_cons, List.length_append]
      omega
  have hlength := h.length_le
  clear h
  induction U with
  | nil => exact fun c hc => absurd hc List.not_mem_nil
  | cons c rest ih =>
    have hc := (hsome c.2).length_le
    have hrest := hall rest
    simp only [List.flatMap_cons, List.length_append] at hlength
    have hfirst : part c.2 = whole c.2 := (hsome c.2).eq_of_length (by omega)
    intro d hd
    cases List.mem_cons.mp hd with
    | inl heq => exact heq ▸ hfirst
    | inr hmem => exact ih (by omega) d hmem

theorem filter_map_congr {U : List (Text × List Text)} {keep keep' : List Text → List Text}
    (h : ∀ c ∈ U, isAction casefold c.1 = true → keep c.2 = keep' c.2) :
    (U.map (fun c => (c.1, keep c.2))).filter (fun c => isAction casefold c.1 && decide (c.2 ≠ [])) =
      (U.map (fun c => (c.1, keep' c.2))).filter (fun c => isAction casefold c.1 && decide (c.2 ≠ [])) := by
  induction U with
  | nil => rfl
  | cons c rest ih =>
    have hrest := ih (fun d hd => h d (List.mem_cons_of_mem c hd))
    by_cases hname : isAction casefold c.1 = true
    · rw [List.map_cons, List.map_cons, h c List.mem_cons_self hname, List.filter_cons, List.filter_cons, hrest]
    · rw [List.map_cons, List.map_cons, List.filter_cons_of_neg (by simp [hname]),
        List.filter_cons_of_neg (by simp [hname]), hrest]

end

/-- The note keeps all of Action required: every step of the section, every category
that has steps, and every step of the full note. -/
structure KeepsAction (casefold : Text → Text) (notes note : Text) : Prop where
  steps : (actionSteps casefold notes).Sublist (actionSteps casefold note)
  categories : ((actionBlocks casefold notes).map Prod.fst).Sublist ((actionBlocks casefold note).map Prod.fst)
  full : ∀ version lifted, liftAction casefold notes version = .ok lifted →
    (actionSteps casefold lifted).Sublist (actionSteps casefold note)

theorem keepsAction_iff {casefold : Text → Text} {notes : Text} (hmarked : markedLines casefold notes ≠ []) :
    KeepsAction casefold notes (shortText casefold notes) ↔
      ∀ c ∈ (underHeading (splitlines notes)).2, isAction casefold c.1 = true → Bulleted c.2 := by
  have hshort := actionBlocks_shortText hmarked
  have hall : actionBlocks casefold notes = _ := actionUnder_eq
  constructor
  · intro h c hc hname
    have hsteps := h.steps
    unfold actionSteps at hsteps
    rw [hshort, hall, flatMap_filter_snd, flatMap_filter_snd] at hsteps
    rw [← kept_eq_written_iff]
    exact eq_of_flatMap_sublist (fun lines => kept_sublist none lines) hsteps c
      (List.mem_filter.mpr ⟨hc, hname⟩)
  · intro h
    have hsame : actionBlocks casefold (shortText casefold notes) = actionBlocks casefold notes := by
      rw [hshort, hall]
      exact filter_map_congr (fun c hc hname => (kept_eq_written_iff c.2).mpr (h c hc hname))
    constructor
    · simp only [actionSteps, hsame, List.Sublist.refl]
    · simp only [hsame, List.Sublist.refl]
    · intro version lifted hlifted
      simp only [actionSteps, hsame, actionBlocks_liftAction hlifted, List.Sublist.refl]

/-- The short note, before its markers go, keeps all of Action required if and only if
each such category is bullets and what is indented under them. -/
theorem short_note_keeps {casefold : Text → Text} {notes version note : Text}
    (h : buildShort casefold notes version = .ok note) :
    note = stripMarkers (shortText casefold notes) ∧
      (KeepsAction casefold notes (shortText casefold notes) ↔
        ∀ c ∈ (underHeading (splitlines notes)).2, isAction casefold c.1 = true → Bulleted c.2) := by
  obtain ⟨hmarked, hnote⟩ := buildShort_ok.mp h
  have hlines : markedLines casefold notes ≠ [] := by
    intro hnil
    apply hmarked
    rw [markedBullets_eq, hnil]
    rfl
  exact ⟨hnote, keepsAction_iff hlines⟩

/-! A section whose step is a wrapped bullet, and one with a step that is a paragraph. -/

def bulletNotes : Text :=
  joinLines [text "### Bug fixes", [], text "- A fix <!--short-->", [], text "### Action required", [],
    text "- Restart", text "  the lock.", []]

def restartNotes : Text :=
  joinLines [text "### Action required", [], text "Restart.", [], text "### Bug fixes", [],
    text "- A fix <!--short-->"]

def bulletNote : Text :=
  joinLines [text "### Action required", [], text "- Restart", text "  the lock.", [], text "### Bug fixes", [],
    text "- A fix", [], changelogLine]

/-- Its short note has lost the step, and the category. -/
def restartNote : Text := joinLines [text "### Bug fixes", [], text "- A fix", [], changelogLine]

theorem short_note_keeps_restart :
    (restartNote = stripMarkers (shortText foldAscii restartNotes) ∧
      (KeepsAction foldAscii restartNotes (shortText foldAscii restartNotes) ↔
        ∀ c ∈ (underHeading (splitlines restartNotes)).2, isAction foldAscii c.1 = true → Bulleted c.2)) ∧
    KeepsAction foldAscii bulletNotes (shortText foldAscii bulletNotes) := by
  have hrestart : buildShort foldAscii restartNotes (text "1.0.0") = .ok restartNote := by decide +kernel
  have hbullet : buildShort foldAscii bulletNotes (text "1.0.0") = .ok bulletNote := by decide +kernel
  have hkept : ∀ c ∈ (underHeading (splitlines bulletNotes)).2, isAction foldAscii c.1 = true →
      kept none c.2 = written c.2 := by decide +kernel
  refine ⟨short_note_keeps hrestart, (short_note_keeps hbullet).2.mpr ?_⟩
  intro c hc hname
  exact (kept_eq_written_iff c.2).mp (hkept c hc hname)

theorem short_note_loses :
    buildShort foldAscii restartNotes (text "1.0.0") = .ok restartNote ∧
      liftAction foldAscii restartNotes (text "1.0.0") = .ok restartNotes ∧
      ¬ KeepsAction foldAscii restartNotes (shortText foldAscii restartNotes) := by
  have hsection : actionSteps foldAscii restartNotes = [text "Restart."] := by decide +kernel
  have hshort : actionSteps foldAscii (shortText foldAscii restartNotes) = [] := by decide +kernel
  have hnote : buildShort foldAscii restartNotes (text "1.0.0") = .ok restartNote := by decide +kernel
  have hlifted : liftAction foldAscii restartNotes (text "1.0.0") = .ok restartNotes := by decide +kernel
  refine ⟨hnote, hlifted, ?_⟩
  intro h
  have hsteps := h.steps
  rw [hsection, hshort] at hsteps
  cases hsteps

end OnestiLock.ReleaseNotes
