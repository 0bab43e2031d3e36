import Mathlib.Data.List.Basic

/-! Runs of a labelled transition system given by a partial step function, and
the rules that carry a fact from one step to a whole run. -/

namespace Transition

variable {σ ℓ : Type*}

/-- The state after a run, `none` once a label is not enabled. -/
def exec (step : σ → ℓ → Option σ) : σ → List ℓ → Option σ
  | s, [] => some s
  | s, l :: ls => (step s l).bind (fun t => exec step t ls)

/-- Every label of the run meets the guard in the state it is taken in. -/
def Along (step : σ → ℓ → Option σ) (guard : σ → ℓ → Prop) : σ → List ℓ → Prop
  | _, [] => True
  | s, l :: ls => guard s l ∧ ∀ t, step s l = some t → Along step guard t ls

/-- What the labels of a run leave on record, each in the state it is taken in. -/
def history {β : Type*} (step : σ → ℓ → Option σ) (record : σ → ℓ → List β) : σ → List ℓ → List β
  | _, [] => []
  | s, l :: ls => record s l ++ (step s l).elim [] (fun t => history step record t ls)

variable {step : σ → ℓ → Option σ}

instance Along.decidable {guard : σ → ℓ → Prop} [∀ s l, Decidable (guard s l)] (s : σ) (ls : List ℓ) :
    Decidable (Along step guard s ls) :=
  match ls with
  | [] => .isTrue trivial
  | l :: ls =>
    match h : step s l with
    | none => decidable_of_iff (guard s l) ⟨fun hg => ⟨hg, by simp [h]⟩, And.left⟩
    | some t =>
      have : Decidable (Along step guard t ls) := Along.decidable t ls
      decidable_of_iff (guard s l ∧ Along step guard t ls)
        ⟨fun hg => ⟨hg.1, fun r hr => by rw [← Option.some.inj (h.symm.trans hr)]; exact hg.2⟩,
          fun hg => ⟨hg.1, hg.2 t h⟩⟩

theorem exec_cons {s t : σ} {l : ℓ} {ls : List ℓ} :
    exec step s (l :: ls) = some t ↔ ∃ r, step s l = some r ∧ exec step r ls = some t := by
  simp only [exec, Option.bind_eq_some_iff]

theorem exec_append {s t : σ} {ls ms : List ℓ} :
    exec step s (ls ++ ms) = some t ↔ ∃ r, exec step s ls = some r ∧ exec step r ms = some t := by
  induction ls generalizing s with
  | nil => simp [exec]
  | cons l ls ih =>
    simp only [List.cons_append, exec_cons, ih]
    constructor
    · rintro ⟨r, hr, q, hq, ht⟩
      exact ⟨q, ⟨r, hr, hq⟩, ht⟩
    · rintro ⟨q, ⟨r, hr, hq⟩, ht⟩
      exact ⟨r, hr, q, hq, ht⟩

theorem Along.append {guard : σ → ℓ → Prop} {s r : σ} {ls ms : List ℓ}
    (h : Along step guard s (ls ++ ms)) (hr : exec step s ls = some r) : Along step guard r ms := by
  induction ls generalizing s with
  | nil =>
    have hs : s = r := Option.some.inj hr
    exact hs ▸ h
  | cons l ls ih =>
    obtain ⟨t, ht, hr⟩ := exec_cons.mp hr
    exact ih (h.2 t ht) hr

theorem Along.of_append {guard : σ → ℓ → Prop} {s : σ} {ls ms : List ℓ}
    (h : Along step guard s (ls ++ ms)) : Along step guard s ls := by
  induction ls generalizing s with
  | nil => exact trivial
  | cons l ls ih => exact ⟨h.1, fun t ht => ih (h.2 t ht)⟩

theorem Along.mono {g g' : σ → ℓ → Prop} (hg : ∀ s l, g s l → g' s l) {s : σ} {ls : List ℓ}
    (h : Along step g s ls) : Along step g' s ls := by
  induction ls generalizing s with
  | nil => exact trivial
  | cons l ls ih => exact ⟨hg s l h.1, fun t ht => ih (h.2 t ht)⟩

theorem Along.and {g g' : σ → ℓ → Prop} {s : σ} {ls : List ℓ} (h : Along step g s ls)
    (h' : Along step g' s ls) : Along step (fun s l => g s l ∧ g' s l) s ls := by
  induction ls generalizing s with
  | nil => exact trivial
  | cons l ls ih => exact ⟨⟨h.1, h'.1⟩, fun t ht => ih (h.2 t ht) (h'.2 t ht)⟩

/-- What guarded steps keep, a guarded run keeps. -/
theorem exec_invariant_along {guard : σ → ℓ → Prop} {I : σ → Prop}
    (hstep : ∀ s l t, I s → guard s l → step s l = some t → I t) {s t : σ} {ls : List ℓ}
    (hs : I s) (hg : Along step guard s ls) (h : exec step s ls = some t) : I t := by
  induction ls generalizing s with
  | nil => exact Option.some.inj h ▸ hs
  | cons l ls ih =>
    obtain ⟨r, hr, h⟩ := exec_cons.mp h
    exact ih (hstep s l r hs hg.1 hr) (hg.2 r hr) h

/-- The same for an invariant that ties the state to the record of the run. -/
theorem exec_history {β : Type*} {record : σ → ℓ → List β} {guard : σ → ℓ → Prop}
    {I : σ → List β → Prop}
    (hstep : ∀ s h l t, I s h → guard s l → step s l = some t → I t (h ++ record s l))
    {s t : σ} {ls : List ℓ} {h : List β} (hs : I s h) (hg : Along step guard s ls)
    (hrun : exec step s ls = some t) : I t (h ++ history step record s ls) := by
  induction ls generalizing s h with
  | nil => simpa [history, Option.some.inj hrun] using hs
  | cons l ls ih =>
    obtain ⟨r, hr, hrun⟩ := exec_cons.mp hrun
    have h' := ih (hstep s h l r hs hg.1 hr) (hg.2 r hr) hrun
    simpa only [history, hr, Option.elim_some, List.append_assoc] using h'

/-- A guard that an invariant implies holds along every run. -/
theorem Along.of_invariant {guard : σ → ℓ → Prop} {I : σ → Prop}
    (hstep : ∀ s l t, I s → step s l = some t → I t) (hguard : ∀ s l, I s → guard s l) {s : σ}
    {ls : List ℓ} (hs : I s) : Along step guard s ls := by
  induction ls generalizing s with
  | nil => exact trivial
  | cons l ls ih => exact ⟨hguard s l hs, fun t ht => ih (hstep s l t hs ht)⟩

theorem along_true {s : σ} {ls : List ℓ} : Along step (fun _ _ => True) s ls := by
  induction ls generalizing s with
  | nil => exact trivial
  | cons l ls ih => exact ⟨trivial, fun _ _ => ih⟩

theorem exec_invariant {I : σ → Prop} (hstep : ∀ s l t, I s → step s l = some t → I t) {s t : σ}
    {ls : List ℓ} (hs : I s) (h : exec step s ls = some t) : I t :=
  exec_invariant_along (fun s l t hs _ ht => hstep s l t hs ht) hs along_true h

/-- What a step does under an invariant that it keeps, every step of a run does. -/
theorem exec_forall {I : σ → Prop} {P : ℓ → Prop} (hstep : ∀ s l t, I s → step s l = some t → P l ∧ I t)
    {s t : σ} {ls : List ℓ} (hs : I s) (h : exec step s ls = some t) : ∀ l ∈ ls, P l := by
  induction ls generalizing s with
  | nil => simp
  | cons l ls ih =>
    obtain ⟨r, hr, h⟩ := exec_cons.mp h
    obtain ⟨hl, hI⟩ := hstep s l r hs hr
    exact List.forall_mem_cons.mpr ⟨hl, ih hI h⟩

/-- A run with one of its steps pointed out. -/
theorem exec_split {s t : σ} {ls ms : List ℓ} {l : ℓ} (h : exec step s (ls ++ l :: ms) = some t) :
    ∃ r r', exec step s ls = some r ∧ step r l = some r' ∧ exec step r' ms = some t := by
  obtain ⟨r, hr, h⟩ := exec_append.mp h
  obtain ⟨r', hl, h⟩ := exec_cons.mp h
  exact ⟨r, r', hr, hl, h⟩

/-- A fact that holds at the end of a run and not at its start was brought about by a step. -/
theorem exec_cause {I Q : σ → Prop} {P : σ → ℓ → Prop} (hkeep : ∀ s l t, I s → step s l = some t → I t)
    (hstep : ∀ s l t, I s → step s l = some t → Q t → Q s ∨ P s l) {s t : σ} {ls : List ℓ} (hs : I s)
    (hnot : ¬ Q s) (h : exec step s ls = some t) (ht : Q t) :
    ∃ before l after r, ls = before ++ l :: after ∧ exec step s before = some r ∧ P r l := by
  induction ls generalizing s with
  | nil => exact absurd (Option.some.inj h ▸ ht) hnot
  | cons l ls ih =>
    obtain ⟨r, hr, h⟩ := exec_cons.mp h
    by_cases hq : Q r
    · rcases hstep s l r hs hr hq with hq | hp
      · exact absurd hq hnot
      · exact ⟨[], l, ls, s, rfl, rfl, hp⟩
    · obtain ⟨before, m, after, q, rfl, hq, hp⟩ := ih (hkeep s l r hs hr) hq h
      exact ⟨l :: before, m, after, q, rfl, exec_cons.mpr ⟨r, hr, hq⟩, hp⟩

/-- What is on record was put there by a step of the run. -/
theorem mem_history {β : Type*} {record : σ → ℓ → List β} {s : σ} {ls : List ℓ} {b : β}
    (h : b ∈ history step record s ls) :
    ∃ before l after r, ls = before ++ l :: after ∧ exec step s before = some r ∧ b ∈ record r l := by
  induction ls generalizing s with
  | nil => cases h
  | cons l ls ih =>
    rcases List.mem_append.mp h with hnow | hlater
    · exact ⟨[], l, ls, s, rfl, rfl, hnow⟩
    · cases hs : step s l with
      | none =>
        rw [hs] at hlater
        cases hlater
      | some t =>
        rw [hs] at hlater
        obtain ⟨before, m, after, r, rfl, hr, hb⟩ := ih hlater
        exact ⟨l :: before, m, after, r, rfl, exec_cons.mpr ⟨t, hs, hr⟩, hb⟩

end Transition
