import OnestiLock.ReleaseNotes

/-! The short note and `### Action required`: it keeps what stands in bullets,
and nothing else. -/

namespace OnestiLock.ReleaseNotes

open Python

/-- The lines before the first category heading, and those under each. -/
def underHeading : List Text → List Text × List (Text × List Text)
  | [] => ([], [])
  | line :: rest =>
    match category line with
    | some name => ([], (name, (underHeading rest).1) :: (underHeading rest).2)
    | none => (line :: (underHeading rest).1, (underHeading rest).2)

def written (lines : List Text) : List Text := lines.filter (fun line => !isBlank line)

/-- The lines that start with a category heading, if there are any. -/
def Headed (lines : List Text) : Prop := ∀ line ∈ lines.head?, isHeading line = true

section

variable {lines more : List Text} {line name : Text}

theorem isHeading_eq_false_iff : isHeading line = false ↔ category line = none := by
  unfold isHeading
  rw [Option.isSome_eq_false_iff, Option.isNone_iff_eq_none]

theorem underHeading_heading (h : category line = some name) :
    underHeading (line :: more) = ([], (name, (underHeading more).1) :: (underHeading more).2) := by
  rw [underHeading, h]

theorem underHeading_plain (h : category line = none) :
    underHeading (line :: more) = (line :: (underHeading more).1, (underHeading more).2) := by
  rw [underHeading, h]

theorem underHeading_headed (h : Headed lines) : (underHeading lines).1 = [] := by
  cases lines with
  | nil => rfl
  | cons line rest =>
    have hline : isHeading line = true := h line rfl
    obtain ⟨name, hname⟩ := Option.isSome_iff_exists.mp hline
    rw [underHeading_heading hname]

theorem underHeading_append (h : Headed more) :
    underHeading (lines ++ more) =
      ((underHeading lines).1, (underHeading lines).2 ++ (underHeading more).2) := by
  induction lines with
  | nil => exact Prod.ext (underHeading_headed h) rfl
  | cons line rest ih =>
    rw [List.cons_append]
    cases hline : category line with
    | some name => rw [underHeading_heading hline, underHeading_heading hline, ih, List.cons_append]
    | none => rw [underHeading_plain hline, underHeading_plain hline, ih]

theorem underHeading_of_plain (h : ∀ line ∈ lines, isHeading line = false) : underHeading lines = (lines, []) := by
  induction lines with
  | nil => rfl
  | cons line rest ih =>
    have hline : category line = none := isHeading_eq_false_iff.mp (h line List.mem_cons_self)
    rw [underHeading_plain hline, ih (fun l hl => h l (List.mem_cons_of_mem line hl))]

theorem underHeading_plain_append (h : ∀ line ∈ lines, isHeading line = false) :
    (underHeading (lines ++ more)).2 = (underHeading more).2 := by
  induction lines with
  | nil => rfl
  | cons line rest ih =>
    have hline : category line = none := isHeading_eq_false_iff.mp (h line List.mem_cons_self)
    rw [List.cons_append, underHeading_plain hline]
    exact ih (fun l hl => h l (List.mem_cons_of_mem line hl))

theorem mem_lead : ∀ line ∈ (underHeading lines).1, line ∈ lines ∧ isHeading line = false := by
  induction lines with
  | nil => exact fun line hline => absurd hline List.not_mem_nil
  | cons first rest ih =>
    intro line hline
    cases hfirst : category first with
    | some name =>
      rw [underHeading_heading hfirst] at hline
      exact absurd hline List.not_mem_nil
    | none =>
      rw [underHeading_plain hfirst] at hline
      cases List.mem_cons.mp hline with
      | inl heq =>
        subst heq
        exact ⟨List.mem_cons_self, isHeading_eq_false_iff.mpr hfirst⟩
      | inr hmem =>
        obtain ⟨hrest, hplain⟩ := ih line hmem
        exact ⟨List.mem_cons_of_mem first hrest, hplain⟩

/-- Every category has its heading, and the lines under it are no headings. -/
theorem mem_underHeading : ∀ c ∈ (underHeading lines).2, (∃ line ∈ lines, category line = some c.1) ∧
    ∀ line ∈ c.2, line ∈ lines ∧ isHeading line = false := by
  induction lines with
  | nil => exact fun c hc => absurd hc List.not_mem_nil
  | cons first rest ih =>
    have hold : ∀ c ∈ (underHeading rest).2, (∃ line ∈ first :: rest, category line = some c.1) ∧
        ∀ line ∈ c.2, line ∈ first :: rest ∧ isHeading line = false := by
      intro c hc
      obtain ⟨⟨line, hline, hname⟩, hunder⟩ := ih c hc
      refine ⟨⟨line, List.mem_cons_of_mem first hline, hname⟩, ?_⟩
      intro l hl
      exact ⟨List.mem_cons_of_mem first (hunder l hl).1, (hunder l hl).2⟩
    intro c hc
    cases hfirst : category first with
    | none =>
      rw [underHeading_plain hfirst] at hc
      exact hold c hc
    | some name =>
      rw [underHeading_heading hfirst] at hc
      cases List.mem_cons.mp hc with
      | inr hmem => exact hold c hmem
      | inl heq =>
        subst heq
        refine ⟨⟨first, List.mem_cons_self, hfirst⟩, ?_⟩
        intro l hl
        obtain ⟨hmem, hplain⟩ := mem_lead l hl
        exact ⟨List.mem_cons_of_mem first hmem, hplain⟩

/-! A heading is not blank. -/

theorem isBlank_of_category (h : category line = some name) : isBlank line = false := by
  unfold category removePrefix at h
  split at h
  · cases h
  · rename_i rest hprefix
    have hfront : (text "###").isPrefixOf line = true := by
      by_contra hnot
      simp [hnot] at hprefix
    obtain ⟨tail, rfl⟩ := List.isPrefixOf_iff_prefix.mp hfront
    rfl

theorem written_append : written (lines ++ more) = written lines ++ written more := List.filter_append ..

theorem underHeading_written :
    underHeading (written lines) =
      (written (underHeading lines).1, (underHeading lines).2.map (fun c => (c.1, written c.2))) := by
  unfold written
  induction lines with
  | nil => rfl
  | cons line rest ih =>
    cases hline : category line with
    | some name =>
      rw [List.filter_cons_of_pos (by simp [isBlank_of_category hline]), underHeading_heading hline,
        underHeading_heading hline, ih]
      rfl
    | none =>
      by_cases hblank : isBlank line = true
      · rw [List.filter_cons_of_neg (by simp [hblank]), underHeading_plain hline, ih,
          List.filter_cons_of_neg (by simp [hblank])]
      · rw [List.filter_cons_of_pos (by simpa using hblank), underHeading_plain hline, underHeading_plain hline, ih,
          List.filter_cons_of_pos (by simpa using hblank)]

end

/-! The bullets among the lines under a heading, with the lines above that belong
to the last one begun. -/

def bulletLines : Option (List Text) → List Text → List (List Text)
  | current, [] => current.toList
  | current, line :: rest =>
    if isBullet line then current.toList ++ bulletLines (some [line]) rest
    else match current with
    | some lines =>
      if isBlank line || isIndented line then bulletLines (some (lines ++ [line])) rest
      else lines :: bulletLines none rest
    | none => bulletLines none rest

section

variable {lines : List Text}

theorem bulletLines_bullet {current : Option (List Text)} {line : Text} (h : isBullet line = true) :
    bulletLines current (line :: lines) = current.toList ++ bulletLines (some [line]) lines := by
  rw [bulletLines.eq_def]
  simp only [h, if_true]

theorem bulletLines_none {line : Text} (h : ¬ isBullet line = true) :
    bulletLines none (line :: lines) = bulletLines none lines := by
  rw [bulletLines.eq_def]
  simp only [h, if_false, Bool.false_eq_true]

theorem bulletLines_some {begun : List Text} {line : Text} (h : ¬ isBullet line = true) :
    bulletLines (some begun) (line :: lines) =
      if isBlank line || isIndented line then bulletLines (some (begun ++ [line])) lines
      else begun :: bulletLines none lines := by
  rw [bulletLines.eq_def]
  simp only [h, if_false, Bool.false_eq_true]

theorem close_of_cons {lead : List Text} {name : Text} {bullets : List Text} {older : List (Text × List Text)}
    {current : Option (List Text)} :
    Scan.close ⟨lead, (name, bullets) :: older, current⟩ =
      ⟨lead, (name, bullets ++ current.toList.map bulletText) :: older, none⟩ := by
  cases current with
  | none => simp [Scan.close]
  | some lines => rfl

/-- Under a heading the loop collects the bullets, and those of the headings to come. -/
theorem scan_under (lines : List Text) (lead : List Text) (name : Text) (bullets : List Text)
    (older : List (Text × List Text)) (current : Option (List Text)) :
    (lines.foldl Scan.line ⟨lead, (name, bullets) :: older, current⟩).close =
      ⟨lead, ((underHeading lines).2.map (fun c => (c.1, (bulletLines none c.2).map bulletText))).reverse ++
        (name, bullets ++ (bulletLines current (underHeading lines).1).map bulletText) :: older, none⟩ := by
  induction lines generalizing name bullets older current with
  | nil => exact close_of_cons
  | cons line rest ih =>
    rw [List.foldl_cons]
    cases hline : category line with
    | some other =>
      have hstep : Scan.line ⟨lead, (name, bullets) :: older, current⟩ line =
          ⟨lead, (other, []) :: (name, bullets ++ current.toList.map bulletText) :: older, none⟩ := by
        unfold Scan.line
        rw [hline]
        simp only [close_of_cons]
      rw [hstep, ih, underHeading_heading hline]
      simp [bulletLines]
    | none =>
      rw [underHeading_plain hline]
      simp only
      by_cases hbullet : isBullet line = true
      · have hstep : Scan.line ⟨lead, (name, bullets) :: older, current⟩ line =
            ⟨lead, (name, bullets ++ current.toList.map bulletText) :: older, some [line]⟩ := by
          unfold Scan.line
          rw [hline]
          simp only [close_of_cons, List.cons_ne_nil, if_false, hbullet, if_true]
        rw [hstep, ih, bulletLines_bullet hbullet]
        simp
      · cases current with
        | none =>
          have hstep : Scan.line ⟨lead, (name, bullets) :: older, none⟩ line =
              ⟨lead, (name, bullets) :: older, none⟩ := by
            unfold Scan.line
            rw [hline]
            simp only [close_of_cons, List.cons_ne_nil, if_false, hbullet, Option.toList_none, List.map_nil,
              List.append_nil, Bool.false_eq_true]
          rw [hstep, ih, bulletLines_none hbullet]
        | some begun =>
          by_cases hbelongs : (isBlank line || isIndented line) = true
          · have hstep : Scan.line ⟨lead, (name, bullets) :: older, some begun⟩ line =
                ⟨lead, (name, bullets) :: older, some (begun ++ [line])⟩ := by
              unfold Scan.line
              rw [hline]
              simp only [List.cons_ne_nil, if_false, hbullet, hbelongs, if_true, Bool.false_eq_true]
            rw [hstep, ih, bulletLines_some hbullet, if_pos hbelongs]
          · have hstep : Scan.line ⟨lead, (name, bullets) :: older, some begun⟩ line =
                ⟨lead, (name, bullets ++ [bulletText begun]) :: older, none⟩ := by
              unfold Scan.line
              rw [hline]
              simp only [close_of_cons, List.cons_ne_nil, if_false, hbullet, hbelongs, Bool.false_eq_true,
                Option.toList_some, List.map_cons, List.map_nil]
            rw [hstep, ih, bulletLines_some hbullet, if_neg hbelongs]
            simp

theorem scan_lead (lines lead : List Text) :
    (lines.foldl Scan.line ⟨lead, [], none⟩).close =
      ⟨lead ++ (underHeading lines).1,
        ((underHeading lines).2.map (fun c => (c.1, (bulletLines none c.2).map bulletText))).reverse, none⟩ := by
  induction lines generalizing lead with
  | nil =>
    rw [underHeading, List.append_nil]
    rfl
  | cons line rest ih =>
    rw [List.foldl_cons]
    cases hline : category line with
    | some name =>
      have hstep : Scan.line ⟨lead, [], none⟩ line = ⟨lead, [(name, [])], none⟩ := by
        unfold Scan.line
        rw [hline]
        rfl
      rw [hstep, scan_under, underHeading_heading hline]
      simp
    | none =>
      have hstep : Scan.line ⟨lead, [], none⟩ line = ⟨lead ++ [line], [], none⟩ := by
        unfold Scan.line
        rw [hline]
        rfl
      rw [hstep, ih, underHeading_plain hline]
      simp

theorem splitCategories_eq (t : Text) :
    splitCategories t = (stripNewlines (joinLines (underHeading (splitlines t)).1),
      (underHeading (splitlines t)).2.map (fun c => (c.1, (bulletLines none c.2).map bulletText))) := by
  unfold splitCategories
  simp only [scan_lead, List.nil_append, List.reverse_reverse]

/-! What of the lines is kept: a bullet, and an indented line below one. -/

/-- The first line with text is a bullet, and every one is a bullet or indented. -/
structure Bulleted (lines : List Text) : Prop where
  first : ∀ line ∈ (written lines).head?, isBullet line = true
  each : ∀ line ∈ written lines, isBullet line = true ∨ isIndented line = true

def kept (current : Option (List Text)) (lines : List Text) : List Text :=
  written (bulletLines current lines).flatten

theorem written_more (begun : List Text) (line : Text) (rest : List Text) :
    written (some (begun ++ [line])).toList.flatten ++ written rest =
      written (some begun).toList.flatten ++ written (line :: rest) := by
  have hflat : ∀ l : List Text, (some l).toList.flatten = l := fun l => by simp
  rw [hflat, hflat, ← written_append, ← written_append, List.append_assoc, List.singleton_append]

theorem kept_sublist (current : Option (List Text)) (lines : List Text) :
    (kept current lines).Sublist (written current.toList.flatten ++ written lines) := by
  unfold kept
  induction lines generalizing current with
  | nil =>
    rw [bulletLines]
    exact List.sublist_append_left _ _
  | cons line rest ih =>
    have hskip : ∀ l : List Text, (l ++ written rest).Sublist (l ++ written (line :: rest)) := by
      intro l
      exact List.Sublist.append_left ((List.sublist_cons_self line rest).filter _) l
    by_cases hbullet : isBullet line = true
    · rw [bulletLines_bullet hbullet, List.flatten_append, written_append]
      apply List.Sublist.append_left
      have hone : written (some [line]).toList.flatten ++ written rest = written (line :: rest) :=
        written_append.symm
      exact hone ▸ ih (some [line])
    · cases current with
      | none =>
        rw [bulletLines_none hbullet]
        exact (ih none).trans (hskip _)
      | some begun =>
        rw [bulletLines_some hbullet]
        by_cases hbelongs : (isBlank line || isIndented line) = true
        · rw [if_pos hbelongs]
          exact written_more begun line rest ▸ ih (some (begun ++ [line]))
        · rw [if_neg hbelongs, List.flatten_cons, written_append]
          have hbegun : written (some begun).toList.flatten = written begun := by simp
          rw [hbegun]
          exact List.Sublist.append_left ((ih none).trans (hskip _)) _

theorem isBlank_of_isBullet {line : Text} (h : isBullet line = true) : isBlank line = false := by
  unfold isBullet at h
  split at h
  · cases h
  · rename_i c rest
    simp only [Bool.and_eq_true, decide_eq_true_eq] at h
    have hc : isWhitespace c = false := by
      cases h.1.1 with
      | inl heq => exact heq ▸ by decide
      | inr heq => exact heq ▸ by decide
    simp [isBlank, hc]

theorem written_cons_of_blank {line : Text} (h : isBlank line = true) : written (line :: lines) = written lines :=
  List.filter_cons_of_neg (by simp [h])

theorem written_cons_of_text {line : Text} (h : isBlank line = false) :
    written (line :: lines) = line :: written lines :=
  List.filter_cons_of_pos (by simp [h])

theorem kept_eq_iff (current : Option (List Text)) (lines : List Text) :
    kept current lines = written current.toList.flatten ++ written lines ↔
      (∀ line ∈ written lines, isBullet line = true ∨ isIndented line = true) ∧
        (current = none → ∀ line ∈ (written lines).head?, isBullet line = true) := by
  induction lines generalizing current with
  | nil => simp [kept, bulletLines, written]
  | cons line rest ih =>
    by_cases hbullet : isBullet line = true
    · have htext := isBlank_of_isBullet hbullet
      have hkept : kept current (line :: rest) = written current.toList.flatten ++ kept (some [line]) rest := by
        unfold kept
        rw [bulletLines_bullet hbullet, List.flatten_append, written_append]
      have hline : written (some [line]).toList.flatten = [line] := written_cons_of_text htext
      have hrest := ih (some [line])
      rw [hline] at hrest
      have hcons : written (line :: rest) = [line] ++ written rest := written_cons_of_text htext
      rw [hkept, List.append_cancel_left_eq, hcons, hrest]
      simp [hbullet]
    · cases current with
      | none =>
        have hkept : kept none (line :: rest) = kept none rest := by
          unfold kept
          rw [bulletLines_none hbullet]
        rw [hkept]
        by_cases hblank : isBlank line = true
        · rw [written_cons_of_blank hblank]
          exact ih none
        · have htext : isBlank line = false := by simpa using hblank
          rw [written_cons_of_text htext]
          constructor
          · intro heq
            have hlength : (kept none rest).length ≤ (written rest).length := (kept_sublist none rest).length_le
            rw [heq] at hlength
            exact absurd hlength (Nat.not_succ_le_self _)
          · intro h
            exact absurd (h.2 rfl line rfl) hbullet
      | some begun =>
        by_cases hbelongs : (isBlank line || isIndented line) = true
        · have hkept : kept (some begun) (line :: rest) = kept (some (begun ++ [line])) rest := by
            unfold kept
            rw [bulletLines_some hbullet, if_pos hbelongs]
          rw [hkept, ← written_more, ih]
          by_cases hblank : isBlank line = true
          · rw [written_cons_of_blank hblank]
            simp
          · have hindented : isIndented line = true := by simpa [hblank] using hbelongs
            rw [written_cons_of_text (by simpa using hblank)]
            simp [hindented]
        · have hkept : kept (some begun) (line :: rest) = written begun ++ kept none rest := by
            unfold kept
            rw [bulletLines_some hbullet, if_neg hbelongs, List.flatten_cons, written_append]
          simp only [Bool.or_eq_true, not_or, Bool.not_eq_true] at hbelongs
          have hbegun : written (some begun).toList.flatten = written begun := by simp
          rw [hkept, hbegun, List.append_cancel_left_eq, written_cons_of_text hbelongs.1]
          constructor
          · intro heq
            have hlength : (kept none rest).length ≤ (written rest).length := (kept_sublist none rest).length_le
            rw [heq] at hlength
            exact absurd hlength (Nat.not_succ_le_self _)
          · intro h
            rcases h.1 line List.mem_cons_self with hline | hline
            · exact absurd hline hbullet
            · rw [hbelongs.2] at hline
              cases hline

theorem kept_eq_written_iff (lines : List Text) : kept none lines = written lines ↔ Bulleted lines := by
  have h := kept_eq_iff none lines
  have hnone : written (none : Option (List Text)).toList.flatten = [] := rfl
  rw [hnone, List.nil_append] at h
  rw [h]
  exact ⟨fun hb => ⟨hb.2 rfl, hb.1⟩, fun hb => ⟨hb.each, fun _ => hb.first⟩⟩

/-! Bullets begin with a bullet line, and are made of the lines they come from. -/

theorem bulletLines_begin (current : Option (List Text)) (lines : List Text)
    (hcurrent : ∀ b ∈ current, ∃ first rest, b = first :: rest ∧ isBullet first = true) :
    ∀ b ∈ bulletLines current lines, ∃ first rest, b = first :: rest ∧ isBullet first = true := by
  induction lines generalizing current with
  | nil =>
    intro b hb
    exact hcurrent b (Option.mem_toList.mp hb)
  | cons line rest ih =>
    intro b hb
    by_cases hbullet : isBullet line = true
    · rw [bulletLines_bullet hbullet] at hb
      cases List.mem_append.mp hb with
      | inl hmem => exact hcurrent b (Option.mem_toList.mp hmem)
      | inr hmem =>
        refine ih (some [line]) ?_ b hmem
        intro begun hbegun
        exact ⟨line, [], (Option.some.inj hbegun).symm, hbullet⟩
    · cases current with
      | none =>
        rw [bulletLines_none hbullet] at hb
        exact ih none nofun b hb
      | some begun =>
        obtain ⟨first, more, hbegun, hfirst⟩ := hcurrent begun rfl
        rw [bulletLines_some hbullet] at hb
        split at hb
        · refine ih (some (begun ++ [line])) ?_ b hb
          intro longer hlonger
          obtain rfl := Option.some.inj hlonger
          exact ⟨first, more ++ [line], by rw [hbegun, List.cons_append], hfirst⟩
        · cases List.mem_cons.mp hb with
          | inl heq => exact heq ▸ ⟨first, more, hbegun, hfirst⟩
          | inr hmem => exact ih none nofun b hmem

theorem mem_of_mem_bulletLines (current : Option (List Text)) (lines : List Text) :
    ∀ b ∈ bulletLines current lines, ∀ line ∈ b, line ∈ current.toList.flatten ∨ line ∈ lines := by
  induction lines generalizing current with
  | nil =>
    intro b hb line hline
    exact .inl (List.mem_flatten.mpr ⟨b, hb, hline⟩)
  | cons first rest ih =>
    intro b hb line hline
    have hrest : ∀ current' : Option (List Text), b ∈ bulletLines current' rest →
        (∀ l ∈ current'.toList.flatten, l ∈ current.toList.flatten ∨ l ∈ first :: rest) →
        line ∈ current.toList.flatten ∨ line ∈ first :: rest := by
      intro current' hb' hcurrent'
      cases ih current' b hb' line hline with
      | inl hmem => exact hcurrent' line hmem
      | inr hmem => exact .inr (List.mem_cons_of_mem first hmem)
    by_cases hbullet : isBullet first = true
    · rw [bulletLines_bullet hbullet] at hb
      cases List.mem_append.mp hb with
      | inl hmem => exact .inl (List.mem_flatten.mpr ⟨b, hmem, hline⟩)
      | inr hmem =>
        refine hrest (some [first]) hmem ?_
        intro l hl
        have heq : l = first := by simpa using hl
        exact .inr (heq ▸ List.mem_cons_self)
    · cases current with
      | none =>
        rw [bulletLines_none hbullet] at hb
        exact hrest none hb (fun l hl => .inl hl)
      | some begun =>
        rw [bulletLines_some hbullet] at hb
        split at hb
        · refine hrest (some (begun ++ [first])) hb ?_
          intro l hl
          have hmem : l ∈ begun ∨ l = first := by simpa using hl
          cases hmem with
          | inl hold => exact .inl (by simpa using hold)
          | inr heq => exact .inr (heq ▸ List.mem_cons_self)
        · cases List.mem_cons.mp hb with
          | inl heq => exact .inl (by simpa [heq] using heq ▸ hline)
          | inr hmem => exact hrest none hmem (fun l hl => absurd hl (by simp))

theorem written_rdropWhile {p : Text → Bool} (hp : ∀ line, p line = true → isBlank line = true)
    (lines : List Text) : written (lines.rdropWhile p) = written lines := by
  induction lines using List.reverseRecOn with
  | nil => rfl
  | append_singleton front last ih =>
    by_cases hlast : p last = true
    · rw [List.rdropWhile_concat_pos _ _ _ hlast, ih, written_append, written_cons_of_blank (hp last hlast)]
      simp [written]
    · rw [List.rdropWhile_concat_neg _ _ _ hlast]

theorem rdropWhile_cons_of_text {line : Text} (h : isBlank line = false) (lines : List Text) :
    (line :: lines).rdropWhile isBlank = line :: lines.rdropWhile isBlank := by
  induction lines using List.reverseRecOn with
  | nil => simp [List.rdropWhile_singleton, h]
  | append_singleton front last ih =>
    rw [← List.cons_append]
    by_cases hlast : isBlank last = true
    · rw [List.rdropWhile_concat_pos _ _ _ hlast, List.rdropWhile_concat_pos _ _ _ hlast, ih]
    · rw [List.rdropWhile_concat_neg _ _ _ hlast, List.rdropWhile_concat_neg _ _ _ hlast, List.cons_append]

theorem written_flatten_map (bullets : List (List Text)) :
    written (bullets.map (fun b => b.rdropWhile isBlank)).flatten = written bullets.flatten := by
  induction bullets with
  | nil => rfl
  | cons b rest ih =>
    rw [List.map_cons, List.flatten_cons, List.flatten_cons, written_append, written_append,
      written_rdropWhile (fun _ hblank => hblank), ih]

end

end OnestiLock.ReleaseNotes
