import OnestiLock.Transition

/-! Infinite runs of a labelled transition system, and what weak fairness makes
them reach. -/

namespace Transition

variable {σ ℓ ι : Type*}

structure Behaviour (step : σ → ℓ → Option σ) where
  state : Nat → σ
  label : Nat → ℓ
  next : ∀ n, step (state n) (label n) = some (state (n + 1))

namespace Behaviour

variable {step : σ → ℓ → Option σ} {b : Behaviour step}

/-- The labels of a kind do not stay enabled forever without one being taken. -/
def WeaklyFair (b : Behaviour step) (kind : ℓ → Prop) : Prop :=
  ∀ n, (∀ m, n ≤ m → ∃ l, kind l ∧ (step (b.state m) l).isSome = true) →
    ∃ m, n ≤ m ∧ kind (b.label m)

theorem exec_labels (n k : Nat) :
    exec step (b.state n) ((List.range' n k).map b.label) = some (b.state (n + k)) := by
  induction k generalizing n with
  | zero => rfl
  | succ k ih =>
    have h := ih (n + 1)
    rw [show n + 1 + k = n + (k + 1) by omega] at h
    simpa only [List.range'_succ, List.map_cons, exec_cons] using ⟨_, b.next n, h⟩

theorem invariant {I : σ → Prop} (hstep : ∀ s l t, I s → step s l = some t → I t) {n m : Nat}
    (hnm : n ≤ m) (hn : I (b.state n)) : I (b.state m) := by
  have h := exec_invariant hstep hn (b.exec_labels n (m - n))
  rwa [Nat.add_sub_of_le hnm] at h

/-- A rank that no step raises, and that the turns of a helper lower, runs out:
what the helpers work for comes about. -/
theorem eventually_of_rank {kind : ι → ℓ → Prop} {I G : σ → Prop} (rank : σ → Nat) (helper : σ → ι)
    (hfair : ∀ i, b.WeaklyFair (kind i))
    (henabled : ∀ s, I s → ∃ l, kind (helper s) l ∧ (step s l).isSome = true)
    (hstep : ∀ s l t, I s → step s l = some t → G t ∨ I t ∧
      (rank t < rank s ∨ rank t = rank s ∧ helper t = helper s ∧ ¬ kind (helper s) l))
    {n : Nat} (hn : I (b.state n)) : ∃ m, n ≤ m ∧ G (b.state m) := by
  induction hr : rank (b.state n) using Nat.strongRecOn generalizing n with
  | ind r ih =>
    by_contra hnever
    have hlower : ∀ m, n ≤ m → I (b.state m) → ¬ rank (b.state m) < r := by
      intro m hm hI hlt
      obtain ⟨k, hk, hgoal⟩ := ih _ hlt hI rfl
      exact hnever ⟨k, Nat.le_trans hm hk, hgoal⟩
    have hstays : ∀ d, I (b.state (n + d)) ∧ rank (b.state (n + d)) = r ∧
        helper (b.state (n + d)) = helper (b.state n) := by
      intro d
      induction d with
      | zero => exact ⟨hn, hr, rfl⟩
      | succ d ih =>
        obtain ⟨hI, hrank, hhelper⟩ := ih
        rcases hstep _ _ _ hI (b.next (n + d)) with hgoal | ⟨hI', hlt | ⟨heq, hsame, -⟩⟩
        · exact absurd ⟨n + d + 1, by omega, hgoal⟩ hnever
        · exact absurd (hrank ▸ hlt) (hlower _ (by omega) hI')
        · exact ⟨hI', heq.trans hrank, hsame.trans hhelper⟩
    have halways : ∀ m, n ≤ m → ∃ l, kind (helper (b.state n)) l ∧ (step (b.state m) l).isSome = true := by
      intro m hm
      obtain ⟨hI, -, hhelper⟩ := hstays (m - n)
      rw [Nat.add_sub_of_le hm] at hI hhelper
      rw [← hhelper]
      exact henabled _ hI
    obtain ⟨m, hm, hkind⟩ := hfair (helper (b.state n)) n halways
    obtain ⟨hI, hrank, hhelper⟩ := hstays (m - n)
    rw [Nat.add_sub_of_le hm] at hI hrank hhelper
    rcases hstep _ _ _ hI (b.next m) with hgoal | ⟨hI', hlt | ⟨-, -, hnot⟩⟩
    · exact hnever ⟨m + 1, by omega, hgoal⟩
    · exact hlower _ (by omega) hI' (hrank ▸ hlt)
    · exact hnot (hhelper ▸ hkind)

end Behaviour

end Transition
