import OnestiLock.ReleaseNotes

/-! Removing the markers of a text goes part by part, where no marker begins in one
part and ends in the next. -/

namespace OnestiLock.ReleaseNotes

open Python

section

variable {front a b : Text}

theorem removePrefix_cons (f c : CodePoint) (front t : Text) :
    removePrefix (f :: front) (c :: t) = if f = c then removePrefix front t else none := by
  unfold removePrefix
  by_cases h : f = c
  · simp [h]
  · simp [h]

theorem removePrefix_append_newline (h : newline ∉ front) :
    removePrefix front (a ++ newline :: b) = (removePrefix front a).map (· ++ newline :: b) := by
  induction front generalizing a with
  | nil => rfl
  | cons f front ih =>
    have hf : f ≠ newline := fun heq => h (heq ▸ List.mem_cons_self)
    have hfront : newline ∉ front := fun hmem => h (List.mem_cons_of_mem f hmem)
    cases a with
    | nil =>
      rw [List.nil_append, removePrefix_cons, if_neg hf]
      rfl
    | cons c a =>
      rw [List.cons_append, removePrefix_cons, removePrefix_cons]
      by_cases hc : f = c
      · rw [if_pos hc, if_pos hc, ih hfront]
      · rw [if_neg hc, if_neg hc]
        rfl

theorem removePrefix_length (h : removePrefix front a = some b) : b.length + front.length = a.length := by
  unfold removePrefix at h
  split at h
  · rename_i hfront
    obtain ⟨rest, rfl⟩ := List.isPrefixOf_iff_prefix.mp hfront
    rw [List.drop_left] at h
    obtain rfl := Option.some.inj h
    rw [List.length_append, Nat.add_comm]
  · cases h

/-! One marker. -/

/-- A text that no marker begun on an earlier line goes on in. -/
structure Apart (b : Text) : Prop where
  word : removePrefix (text "short") (b.dropWhile isWhitespace) = none
  close : removePrefix (text "-->") (b.dropWhile isWhitespace) = none

theorem removePrefix_skip (hfront : newline ∉ front) (hne : removePrefix front [] = none)
    (h : removePrefix front (b.dropWhile isWhitespace) = none) (a : Text) :
    removePrefix front ((a ++ newline :: b).dropWhile isWhitespace) =
      (removePrefix front (a.dropWhile isWhitespace)).map (· ++ newline :: b) := by
  rw [List.dropWhile_append]
  by_cases hblank : (a.dropWhile isWhitespace).isEmpty = true
  · rw [if_pos hblank, List.isEmpty_iff.mp hblank, hne, List.dropWhile_cons_of_pos (by decide), h]
    rfl
  · rw [if_neg hblank, removePrefix_append_newline hfront]

theorem marker_append_newline (h : Apart b) (a : Text) :
    marker (a ++ newline :: b) = (marker a).map (· ++ newline :: b) := by
  have hspaces : (a ++ newline :: b).dropWhile (fun c => decide (c = space ∨ c = tab)) =
      a.dropWhile (fun c => decide (c = space ∨ c = tab)) ++ newline :: b :=
    dropWhile_append_stop (by decide) a b
  unfold marker
  rw [hspaces, removePrefix_append_newline (by decide)]
  cases removePrefix (text "<!--") (a.dropWhile (fun c => decide (c = space ∨ c = tab))) with
  | none => rfl
  | some rest =>
    simp only [Option.map_some]
    rw [removePrefix_skip (by decide) (by decide) h.word]
    cases removePrefix (text "short") (rest.dropWhile isWhitespace) with
    | none => rfl
    | some rest =>
      simp only [Option.map_some]
      exact removePrefix_skip (by decide) (by decide) h.close rest

theorem marker_length (h : marker a = some b) : b.length < a.length := by
  unfold marker at h
  split at h
  · cases h
  · rename_i rest hopen
    split at h
    · cases h
    · rename_i more hword
      have hlength : ∀ (p : CodePoint → Bool) (t : Text), (t.dropWhile p).length ≤ t.length :=
        fun p t => (List.dropWhile_sublist p).length_le
      have hfirst := removePrefix_length hopen
      have hsecond := removePrefix_length hword
      have hthird := removePrefix_length h
      have hsize : (text "short").length = 5 := by decide
      have hspaces := hlength (fun c => decide (c = space ∨ c = tab)) a
      have hrest := hlength isWhitespace rest
      have hmore := hlength isWhitespace more
      omega

/-! All of them. -/

theorem removeMarkers_eq {n : Nat} {t : Text} (h : t.length ≤ n) : removeMarkers n t = stripMarkers t := by
  unfold stripMarkers
  suffices ∀ m, t.length ≤ m → removeMarkers n t = removeMarkers m t from this t.length (Nat.le_refl _)
  induction n generalizing t with
  | zero =>
    intro m _
    have hnil : t = [] := List.length_eq_zero_iff.mp (Nat.le_zero.mp h)
    subst hnil
    cases m <;> rfl
  | succ n ih =>
    intro m hm
    cases t with
    | nil => cases m <;> rfl
    | cons c rest =>
      rw [List.length_cons] at h hm
      cases m with
      | zero => omega
      | succ m =>
        simp only [removeMarkers]
        cases hmarker : marker (c :: rest) with
        | some after =>
          have hafter := marker_length hmarker
          rw [List.length_cons] at hafter
          exact ih (by omega) m (by omega)
        | none => exact congrArg (c :: ·) (ih (by omega) m (by omega))

theorem stripMarkers_cons (c : CodePoint) (rest : Text) :
    stripMarkers (c :: rest) =
      match marker (c :: rest) with
      | some after => stripMarkers after
      | none => c :: stripMarkers rest := by
  have hstep : stripMarkers (c :: rest) = removeMarkers (rest.length + 1) (c :: rest) := rfl
  rw [hstep, removeMarkers]
  cases hmarker : marker (c :: rest) with
  | some after =>
    have hafter := marker_length hmarker
    rw [List.length_cons] at hafter
    exact removeMarkers_eq (by omega)
  | none => exact congrArg (c :: ·) (removeMarkers_eq (Nat.le_refl _))

theorem stripMarkers_append_newline (h : Apart b) (a : Text) :
    stripMarkers (a ++ newline :: b) = stripMarkers a ++ newline :: stripMarkers b := by
  induction hn : a.length using Nat.strong_induction_on generalizing a with
  | _ n ih =>
    cases a with
    | nil =>
      have hnone : marker (newline :: b) = none := marker_append_newline h []
      rw [List.nil_append, stripMarkers_cons, hnone]
      rfl
    | cons c rest =>
      have hmarker := marker_append_newline h (c :: rest)
      rw [List.cons_append] at hmarker
      rw [List.length_cons] at hn
      rw [List.cons_append, stripMarkers_cons, stripMarkers_cons, hmarker]
      cases hfound : marker (c :: rest) with
      | some after =>
        have hafter := marker_length hfound
        rw [List.length_cons] at hafter
        exact ih after.length (by omega) after rfl
      | none => exact congrArg (c :: ·) (ih rest.length (by omega) rest rfl)

end

end OnestiLock.ReleaseNotes
