import OnestiLock.ShortNote

/-! The lines of the short note, and the steps under `### Action required` in it,
in the section it is made from, and in the full note. -/

namespace OnestiLock.ReleaseNotes

open Python

/-- A name as `CATEGORY` gives it: its heading has it again, and is one line. -/
structure Named (name : Text) : Prop where
  again : category (text "### " ++ name) = some name
  line : IsLine (text "### " ++ name)

section

variable {line name : Text}

theorem removePrefix_append (front rest : Text) : removePrefix front (front ++ rest) = some rest := by
  unfold removePrefix
  rw [if_pos (List.isPrefixOf_iff_prefix.mpr (List.prefix_append front rest)), List.drop_left]

theorem append_of_removePrefix {front rest : Text} (h : removePrefix front line = some rest) :
    line = front ++ rest := by
  unfold removePrefix at h
  split at h
  · rename_i hfront
    obtain ⟨tail, rfl⟩ := List.isPrefixOf_iff_prefix.mp hfront
    rw [List.drop_left] at h
    rw [Option.some.inj h]
  · cases h

theorem lazyName_lazyName (t : Text) : lazyName (lazyName t) = lazyName t := by
  cases t with
  | nil => rfl
  | cons c rest =>
    have hagain : (rest.rdropWhile isWhitespace).rdropWhile isWhitespace = rest.rdropWhile isWhitespace :=
      List.rdropWhile_idempotent isWhitespace rest
    simp only [lazyName, hagain]

theorem isLine_heading (h : IsLine name) : IsLine (text "### " ++ name) := by
  have hfront : (text "### ").all (fun c => !isLineBreak c) = true := by decide
  intro c hc
  cases List.mem_append.mp hc with
  | inl hmem => simpa using List.all_eq_true.mp hfront c hmem
  | inr hmem => exact h c hmem

theorem category_heading_space : category (text "### " ++ [space]) = some [space] := by decide

theorem category_heading_name {c : CodePoint} {rest : Text} (hc : c ≠ space) (hlazy : lazyName (c :: rest) = c :: rest) :
    category (text "### " ++ c :: rest) = some (c :: rest) := by
  have hsplit : text "### " ++ c :: rest = text "###" ++ (space :: c :: rest) := rfl
  unfold category
  rw [hsplit, removePrefix_append]
  simp only [List.takeWhile_cons_of_pos (p := fun d => decide (d = space)) (a := space) (by simp),
    List.dropWhile_cons_of_pos (p := fun d => decide (d = space)) (a := space) (by simp),
    List.dropWhile_cons_of_neg (p := fun d => decide (d = space)) (a := c) (by simpa using hc),
    List.cons_ne_nil, if_false, hlazy]

theorem named_of_category (hline : IsLine line) (h : category line = some name) : Named name := by
  unfold category at h
  split at h
  · cases h
  · rename_i rest hrest
    have hfrom : ∀ c ∈ rest, isLineBreak c = false := by
      intro c hc
      apply hline c
      rw [append_of_removePrefix hrest]
      exact List.mem_append_right _ hc
    simp only at h
    split at h
    · split at h
      · obtain rfl := Option.some.inj h
        have hspace : IsLine [space] := by
          intro c hc
          rw [List.mem_singleton.mp hc]
          decide
        exact ⟨category_heading_space, isLine_heading hspace⟩
      · cases h
    · rename_i c more hmore
      split at h
      · cases h
      · obtain rfl := Option.some.inj h
        have hc : c ≠ space := by
          intro heq
          have hnot := List.head?_dropWhile_not (fun d => decide (d = space)) rest
          simp [hmore, heq] at hnot
        have hmem : ∀ d ∈ lazyName (c :: more), d ∈ rest := by
          intro d hd
          have hd' : d ∈ c :: more := by
            cases List.mem_cons.mp hd with
            | inl heq => exact heq ▸ List.mem_cons_self
            | inr htail => exact List.mem_cons_of_mem c ((List.rdropWhile_prefix isWhitespace more).subset htail)
          rw [← hmore] at hd'
          exact (List.dropWhile_sublist _).subset hd'
        have hagain : category (text "### " ++ lazyName (c :: more)) = some (lazyName (c :: more)) :=
          category_heading_name hc (lazyName_lazyName (c :: more))
        exact ⟨hagain, isLine_heading (fun d hd => hfrom d (hmem d hd))⟩

end

/-! The note line by line. -/

/-- The categories of a section with the lines of their bullets. -/
def categoryLines (notes : Text) : List (Text × List (List Text)) :=
  (underHeading (splitlines notes)).2.map (fun c => (c.1, bulletLines none c.2))

def joined (c : Text × List (List Text)) : Text × List Text := (c.1, c.2.map bulletText)

/-- One category of the note. -/
def partLines (c : Text × List (List Text)) : List (List Text) :=
  [text "### " ++ c.1] :: [[]] :: (c.2.map (fun b => b.rdropWhile isBlank) ++ [[[]]])

section

variable (casefold : Text → Text) (notes : Text)

def actionLines : List (Text × List (List Text)) :=
  (categoryLines notes).filter (fun c => isAction casefold c.1 && decide (c.2 ≠ []))

def markedOf (c : Text × List (List Text)) : Option (Text × List (List Text)) :=
  if isAction casefold c.1 then none
  else
    let marked := c.2.filter (fun b => hasMarker (bulletText b))
    if marked = [] then none else some (c.1, marked)

def markedLines : List (Text × List (List Text)) := (categoryLines notes).filterMap (markedOf casefold)

def leadParts : List (List Text) :=
  let lead := trimLines (underHeading (splitlines notes)).1
  if joinLines lead = [] then [] else [lead, [[]]]

def shortLines : List Text :=
  (leadParts notes).flatten ++
    (((actionLines casefold notes).flatMap partLines).flatten ++
      (((markedLines casefold notes).flatMap partLines).flatten ++ [changelogLine]))

end

section

variable {casefold : Text → Text} {notes : Text}

theorem categoryParts_joined (c : Text × List (List Text)) : categoryParts (joined c) = (partLines c).map joinLines := by
  unfold categoryParts joined partLines bulletText
  simp [joinLines, Function.comp_def]

theorem flatMap_categoryParts (cs : List (Text × List (List Text))) :
    (cs.map joined).flatMap categoryParts = (cs.flatMap partLines).map joinLines := by
  rw [List.flatMap_map, List.map_flatMap]
  congr 1
  exact funext categoryParts_joined

theorem splitCategories_snd : (splitCategories notes).2 = (categoryLines notes).map joined := by
  rw [splitCategories_eq]
  simp [categoryLines, joined, Function.comp_def]

theorem splitCategories_fst :
    (splitCategories notes).1 = joinLines (trimLines (underHeading (splitlines notes)).1) := by
  have hlines : ∀ line ∈ (underHeading (splitlines notes)).1, newline ∉ line := by
    intro line hline
    exact (isLine_of_mem_splitlines notes line (mem_lead line hline).1).newline_not_mem
  rw [splitCategories_eq]
  exact stripNewlines_joinLines hlines

theorem markedBullets_eq : markedBullets casefold notes = (markedLines casefold notes).map joined := by
  have hone : ∀ c : Text × List (List Text),
      (if isAction casefold (joined c).1 then none
        else
          let marked := (joined c).2.filter hasMarker
          if marked = [] then none else some ((joined c).1, marked)) = (markedOf casefold c).map joined := by
    intro c
    unfold joined markedOf
    split
    · rfl
    · simp only [List.filter_map, List.map_eq_nil_iff, Function.comp_def]
      split
      · rfl
      · rfl
  unfold markedBullets markedLines
  rw [splitCategories_snd, List.filterMap_map, List.map_filterMap]
  congr 1
  exact funext hone

theorem actionParts_eq :
    ((splitCategories notes).2.filter (fun c => isAction casefold c.1 && decide (c.2 ≠ []))).flatMap categoryParts =
      ((actionLines casefold notes).flatMap partLines).map joinLines := by
  have hsame : (splitCategories notes).2.filter (fun c => isAction casefold c.1 && decide (c.2 ≠ [])) =
      (actionLines casefold notes).map joined := by
    unfold actionLines
    rw [splitCategories_snd, List.filter_map]
    simp [joined, Function.comp_def]
  rw [hsame, flatMap_categoryParts]

theorem leadParts_eq :
    (if (splitCategories notes).1 = [] then [] else [(splitCategories notes).1, []]) =
      (leadParts notes).map joinLines := by
  unfold leadParts
  rw [splitCategories_fst]
  by_cases h : joinLines (trimLines (underHeading (splitlines notes)).1) = []
  · simp [h]
  · simp [h, joinLines]

/-- What a block of the note can be: named as a heading, with bullets under it. -/
def IsBlock (c : Text × List (List Text)) : Prop :=
  Named c.1 ∧ ∀ b ∈ c.2, (∃ first rest, b = first :: rest ∧ isBullet first = true) ∧
    ∀ line ∈ b, IsLine line ∧ isHeading line = false

theorem mem_categoryLines {c : Text × List (List Text)} (h : c ∈ categoryLines notes) : IsBlock c := by
  obtain ⟨under, hunder, rfl⟩ := List.mem_map.mp h
  obtain ⟨⟨heading, hheading, hname⟩, hlines⟩ := mem_underHeading under hunder
  constructor
  · exact named_of_category (isLine_of_mem_splitlines notes heading hheading) hname
  · intro b hb
    refine ⟨bulletLines_begin none under.2 nofun b hb, ?_⟩
    intro line hline
    cases mem_of_mem_bulletLines none under.2 b hb line hline with
    | inl hnone => exact absurd hnone List.not_mem_nil
    | inr hmem =>
      obtain ⟨hsection, hplain⟩ := hlines line hmem
      exact ⟨isLine_of_mem_splitlines notes line hsection, hplain⟩

theorem blocks_actionLines : ∀ c ∈ actionLines casefold notes, IsBlock c := by
  intro c hc
  exact mem_categoryLines (List.mem_filter.mp hc).1

theorem mem_markedLines {c : Text × List (List Text)} (h : c ∈ markedLines casefold notes) :
    isAction casefold c.1 = false ∧ ∃ source ∈ categoryLines notes, source.1 = c.1 ∧ ∀ b ∈ c.2, b ∈ source.2 := by
  obtain ⟨source, hsource, hmarked⟩ := List.mem_filterMap.mp h
  unfold markedOf at hmarked
  split at hmarked
  · cases hmarked
  · rename_i hname
    simp only at hmarked
    split at hmarked
    · cases hmarked
    · obtain rfl := Option.some.inj hmarked
      exact ⟨by simpa using hname, source, hsource, rfl, fun b hb => (List.mem_filter.mp hb).1⟩

theorem blocks_markedLines : ∀ c ∈ markedLines casefold notes, IsBlock c := by
  intro c hc
  obtain ⟨-, source, hsource, hname, hbullets⟩ := mem_markedLines hc
  obtain ⟨hnamed, hlines⟩ := mem_categoryLines hsource
  exact ⟨hname ▸ hnamed, fun b hb => hlines b (hbullets b hb)⟩

theorem partLines_ne_nil {c : Text × List (List Text)}
    (h : ∀ b ∈ c.2, ∃ first rest, b = first :: rest ∧ isBullet first = true) :
    ∀ part ∈ partLines c, part ≠ [] := by
  intro part hpart
  simp only [partLines, List.mem_cons, List.mem_append, List.mem_map, List.not_mem_nil, or_false] at hpart
  rcases hpart with rfl | rfl | ⟨b, hb, rfl⟩ | rfl
  · simp
  · simp
  · obtain ⟨first, rest, rfl, hbullet⟩ := h b hb
    have htext := isBlank_of_isBullet hbullet
    rw [Ne, List.rdropWhile_eq_nil_iff]
    intro hall
    rw [hall first List.mem_cons_self] at htext
    cases htext
  · simp

theorem flatMap_partLines_ne_nil {cs : List (Text × List (List Text))} (h : ∀ c ∈ cs, IsBlock c) :
    ∀ part ∈ cs.flatMap partLines, part ≠ [] := by
  intro part hpart
  obtain ⟨c, hc, hmem⟩ := List.mem_flatMap.mp hpart
  exact partLines_ne_nil (fun b hb => ((h c hc).2 b hb).1) part hmem

theorem leadParts_ne_nil : ∀ part ∈ leadParts notes, part ≠ [] := by
  intro part hpart
  unfold leadParts at hpart
  simp only at hpart
  split at hpart
  · cases hpart
  · rename_i hlead
    simp only [List.mem_cons, List.not_mem_nil, or_false] at hpart
    rcases hpart with rfl | rfl
    · intro hempty
      exact hlead (by rw [hempty]; rfl)
    · simp

theorem shortText_eq : shortText casefold notes = joinLines (shortLines casefold notes) := by
  have hparts : shortText casefold notes = joinLines
      ((leadParts notes ++ ((actionLines casefold notes).flatMap partLines ++
        ((markedLines casefold notes).flatMap partLines ++ [[changelogLine]]))).map joinLines) := by
    unfold shortText
    simp only
    rw [leadParts_eq, actionParts_eq, markedBullets_eq, flatMap_categoryParts]
    simp [joinLines]
  rw [hparts, joinLines_flatten]
  · simp [shortLines]
  · intro part hpart
    simp only [List.mem_append, List.mem_singleton] at hpart
    rcases hpart with hlead | haction | hmarked | rfl
    · exact leadParts_ne_nil part hlead
    · exact flatMap_partLines_ne_nil blocks_actionLines part haction
    · exact flatMap_partLines_ne_nil blocks_markedLines part hmarked
    · simp

theorem isLine_nil : IsLine [] := fun _ hc => absurd hc List.not_mem_nil

theorem isLine_partLines {cs : List (Text × List (List Text))} (h : ∀ c ∈ cs, IsBlock c) :
    ∀ line ∈ (cs.flatMap partLines).flatten, IsLine line := by
  intro line hline
  obtain ⟨part, hpart, hmem⟩ := List.mem_flatten.mp hline
  obtain ⟨c, hc, hcpart⟩ := List.mem_flatMap.mp hpart
  simp only [partLines, List.mem_cons, List.mem_append, List.mem_map, List.not_mem_nil, or_false] at hcpart
  rcases hcpart with rfl | rfl | ⟨b, hb, rfl⟩ | rfl
  · rw [List.mem_singleton.mp hmem]
    exact (h c hc).1.line
  · rw [List.mem_singleton.mp hmem]
    exact isLine_nil
  · have hline' : line ∈ b := (List.rdropWhile_prefix isBlank b).subset hmem
    exact (((h c hc).2 b hb).2 line hline').1
  · rw [List.mem_singleton.mp hmem]
    exact isLine_nil

theorem mem_leadParts {line : Text} (h : line ∈ (leadParts notes).flatten) :
    IsLine line ∧ isHeading line = false := by
  have hempty : IsLine [] ∧ isHeading [] = false := ⟨isLine_nil, rfl⟩
  unfold leadParts at h
  simp only at h
  split at h
  · cases h
  · simp only [List.flatten_cons, List.flatten_nil, List.append_nil, List.mem_append, List.mem_singleton] at h
    cases h with
    | inl htrim =>
      have hmem : line ∈ (underHeading (splitlines notes)).1 :=
        (List.dropWhile_sublist _).subset ((List.rdropWhile_prefix _ _).subset htrim)
      obtain ⟨hsection, hplain⟩ := mem_lead line hmem
      exact ⟨isLine_of_mem_splitlines notes line hsection, hplain⟩
    | inr heq => exact heq ▸ hempty

theorem splitlines_shortText : splitlines (shortText casefold notes) = shortLines casefold notes := by
  have hchangelog : changelogLine.all (fun c => !isLineBreak c) = true := by decide
  rw [shortText_eq]
  apply splitlines_joinLines
  · intro line hline
    simp only [shortLines, List.mem_append, List.mem_singleton] at hline
    rcases hline with hlead | haction | hmarked | rfl
    · exact (mem_leadParts hlead).1
    · exact isLine_partLines blocks_actionLines line haction
    · exact isLine_partLines blocks_markedLines line hmarked
    · intro c hc
      simpa using List.all_eq_true.mp hchangelog c hc
  · intro line hline
    have hlast : (shortLines casefold notes).getLast? = some changelogLine := by simp [shortLines]
    rw [hlast] at hline
    obtain rfl := Option.some.inj hline
    decide

end

end OnestiLock.ReleaseNotes
