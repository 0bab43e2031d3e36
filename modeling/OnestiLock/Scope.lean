import Mathlib.Data.List.Basic

/-! Registrations that are undone when their scope is closed: what is live, and
the undo steps on the stack, last first. -/

structure Scope (ρ κ : Type*) where
  live : List ρ
  undo : List κ

namespace Scope

variable {ρ κ : Type*}

def empty : Scope ρ κ := ⟨[], []⟩

def register (s : Scope ρ κ) (r : ρ) : Scope ρ κ := { s with live := s.live ++ [r] }

def onClose (s : Scope ρ κ) (k : κ) : Scope ρ κ := { s with undo := k :: s.undo }

/-- Every registration has its undo step on the stack. -/
def Covered (key : ρ → κ) (s : Scope ρ κ) : Prop := ∀ r ∈ s.live, key r ∈ s.undo

variable {key : ρ → κ} {s : Scope ρ κ}

@[simp] theorem mem_register {r q : ρ} : q ∈ (s.register r).live ↔ q ∈ s.live ∨ q = r := by
  simp [register]

theorem covered_empty : Covered key empty := by
  intro r hr
  cases hr

theorem Covered.onClose (h : s.Covered key) (k : κ) : (s.onClose k).Covered key :=
  fun q hq => List.mem_cons_of_mem _ (h q hq)

/-- What is registered together with its undo step. -/
def enter (key : ρ → κ) (s : Scope ρ κ) (r : ρ) : Scope ρ κ := (s.register r).onClose (key r)

theorem Covered.enter (h : s.Covered key) (r : ρ) : (s.enter key r).Covered key := by
  intro q hq
  rcases mem_register.mp hq with hq | rfl
  · exact List.mem_cons_of_mem _ (h q hq)
  · exact List.mem_cons_self

theorem Covered.foldl_enter (h : s.Covered key) (rs : List ρ) : (rs.foldl (Scope.enter key) s).Covered key := by
  induction rs generalizing s with
  | nil => exact h
  | cons r rs ih => exact ih (h.enter r)

theorem live_foldl_enter (rs : List ρ) : (rs.foldl (Scope.enter key) s).live = s.live ++ rs := by
  induction rs generalizing s with
  | nil => simp
  | cons r rs ih =>
    rw [List.foldl_cons, ih]
    simp [Scope.enter, register, Scope.onClose]

section

variable [DecidableEq κ]

/-- An undo step takes off every registration under its key. -/
def release (key : ρ → κ) (s : Scope ρ κ) (k : κ) : Scope ρ κ :=
  { s with live := s.live.filter (fun r => key r ≠ k) }

def close (key : ρ → κ) (s : Scope ρ κ) : Scope ρ κ := s.undo.foldl (release key) { s with undo := [] }

@[simp] theorem mem_release {k : κ} {r : ρ} : r ∈ (s.release key k).live ↔ r ∈ s.live ∧ key r ≠ k := by
  simp [release]

theorem mem_foldl_release {ks : List κ} {r : ρ} :
    r ∈ (ks.foldl (release key) s).live ↔ r ∈ s.live ∧ key r ∉ ks := by
  induction ks generalizing s with
  | nil => simp
  | cons k ks ih =>
    rw [List.foldl_cons, ih, mem_release, List.mem_cons, not_or, and_assoc]

theorem undo_foldl_release (ks : List κ) : (ks.foldl (release key) s).undo = s.undo := by
  induction ks generalizing s with
  | nil => rfl
  | cons k ks ih => exact ih

theorem Covered.release (h : s.Covered key) (k : κ) : (s.release key k).Covered key :=
  fun q hq => h q (mem_release.mp hq).1

theorem close_eq_empty (h : s.Covered key) : s.close key = empty := by
  have hlive : (s.close key).live = [] := by
    apply List.eq_nil_iff_forall_not_mem.mpr
    intro r hr
    have hr := mem_foldl_release.mp hr
    exact hr.2 (h r hr.1)
  have hundo : (s.close key).undo = [] := undo_foldl_release s.undo
  calc s.close key = ⟨(s.close key).live, (s.close key).undo⟩ := rfl
    _ = empty := by rw [hlive, hundo, empty]

end

end Scope
