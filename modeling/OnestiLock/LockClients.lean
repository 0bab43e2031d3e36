import Mathlib.Logic.Function.Basic
import Mathlib.Logic.Relation
import OnestiLock.FifoLock

/-! The clients of a first-come-first-served lock. What each is doing agrees
with the lock, and when nobody holds the lock its first waiter can run. -/

namespace FifoLock

section

variable {α : Type*} {a : α}

@[simp] theorem waiters_wakeFirst (waiters : List (α × Bool)) : (wakeFirst waiters).waiters = waiters := by
  unfold wakeFirst
  split <;> rfl

theorem woken_wakeFirst {waiters rest : List (α × Bool)} {flag : Bool} (h : waiters = (a, flag) :: rest) :
    (wakeFirst waiters).woken = true ∨ flag = true := by
  subst h
  cases flag
  · exact .inl rfl
  · exact .inr rfl

theorem waits_wakeFirst {waiters : List (α × Bool)} (h : (wakeFirst waiters).woken = true) :
    waiters ≠ [] := by
  rintro rfl
  simp [wakeFirst] at h

end

inductive Seat
  | away | queued | inside
  deriving DecidableEq

/-- A lock, where its clients are, and to whom a throw is on its way. -/
structure Clients (α : Type*) where
  lock : FifoLock α
  seat : α → Seat
  thrown : α → Bool

namespace Clients

variable {α : Type*}

structure Orderly (c : Clients α) : Prop where
  queued : ∀ a, c.seat a = .queued ↔ a ∈ c.lock.waiters.map Prod.fst
  nodup : (c.lock.waiters.map Prod.fst).Nodup
  inside : ∀ a, c.seat a = .inside ↔ c.lock.holder = some a
  awake : c.lock.holder = none → ∀ a flag rest, c.lock.waiters = (a, flag) :: rest →
    c.lock.woken = true ∨ flag = true
  waits : c.lock.woken = true → c.lock.waiters ≠ []
  flagged : ∀ a, (a, true) ∈ c.lock.waiters → c.thrown a = true

theorem Orderly.holder_unique {c : Clients α} {a b : α} (hi : Orderly c) (ha : c.seat a = .inside)
    (hb : c.seat b = .inside) : b = a := by
  have h := (hi.inside b).mp hb
  rw [(hi.inside a).mp ha] at h
  exact (Option.some.inj h).symm

section

variable {c d : Clients α}

theorem Orderly.holder_eq (hc : Orderly c) (hd : Orderly d)
    (h : ∀ a, d.seat a = .inside ↔ c.seat a = .inside) : d.lock.holder = c.lock.holder := by
  refine Option.ext fun a => ?_
  rw [← hd.inside a, h a, hc.inside a]

theorem Orderly.holder_none (hd : Orderly d) (h : ∀ a, d.seat a ≠ .inside) : d.lock.holder = none := by
  refine Option.eq_none_iff_forall_ne_some.mpr fun a ha => ?_
  exact h a ((hd.inside a).mpr ha)

theorem Orderly.length_le (hc : Orderly c) (hd : Orderly d)
    (h : ∀ a, d.seat a = .queued → c.seat a = .queued) :
    d.lock.waiters.length ≤ c.lock.waiters.length := by
  have hsubset : d.lock.waiters.map Prod.fst ⊆ c.lock.waiters.map Prod.fst :=
    fun a ha => (hc.queued a).mp (h a ((hd.queued a).mpr ha))
  have hle := hd.nodup.length_le_of_subset hsubset
  rwa [List.length_map, List.length_map] at hle

theorem Orderly.length_lt {a : α} (hc : Orderly c) (hd : Orderly d)
    (h : ∀ b, d.seat b = .queued → c.seat b = .queued) (ha : c.seat a = .queued)
    (ha' : d.seat a ≠ .queued) : d.lock.waiters.length < c.lock.waiters.length := by
  have hnodup : (a :: d.lock.waiters.map Prod.fst).Nodup :=
    List.nodup_cons.mpr ⟨fun hmem => ha' ((hd.queued a).mpr hmem), hd.nodup⟩
  have hsubset : a :: d.lock.waiters.map Prod.fst ⊆ c.lock.waiters.map Prod.fst := by
    refine List.cons_subset.mpr ⟨(hc.queued a).mp ha, ?_⟩
    exact fun b hb => (hc.queued b).mp (h b ((hd.queued b).mpr hb))
  have hle := hnodup.length_le_of_subset hsubset
  simp only [List.length_cons, List.length_map] at hle
  omega

end

theorem Orderly.wakeFirst {waiters : List (α × Bool)} {seat : α → Seat} {thrown : α → Bool}
    (hqueued : ∀ b, seat b = .queued ↔ b ∈ waiters.map Prod.fst)
    (hnodup : (waiters.map Prod.fst).Nodup) (hinside : ∀ b, seat b ≠ .inside)
    (hflagged : ∀ b, (b, true) ∈ waiters → thrown b = true) :
    Orderly ⟨FifoLock.wakeFirst waiters, seat, thrown⟩ := by
  refine ⟨?_, ?_, ?_, ?_, ?_, ?_⟩
  · simpa using hqueued
  · simpa using hnodup
  · simpa using hinside
  · intro _ b flag rest hw
    rw [waiters_wakeFirst] at hw
    exact woken_wakeFirst hw
  · intro hwoken
    rw [waiters_wakeFirst]
    exact waits_wakeFirst hwoken
  · simpa using hflagged

variable [DecidableEq α]

/-- What one client does, or what is done to it. -/
inductive Move : Clients α → Clients α → Prop
  | enter {c : Clients α} {a : α} {m : FifoLock α} (ha : c.seat a = .away)
      (h : c.lock.acquire a = (m, true)) : Move c ⟨m, Function.update c.seat a .inside, c.thrown⟩
  | wait {c : Clients α} {a : α} {m : FifoLock α} (ha : c.seat a = .away)
      (h : c.lock.acquire a = (m, false)) : Move c ⟨m, Function.update c.seat a .queued, c.thrown⟩
  | take {c : Clients α} {a : α} {m : FifoLock α} (ha : c.seat a = .queued)
      (h : c.lock.take a = some m) : Move c ⟨m, Function.update c.seat a .inside, c.thrown⟩
  | leave {c : Clients α} {a : α} (ha : c.seat a = .inside) :
      Move c ⟨c.lock.release, Function.update c.seat a .away, c.thrown⟩
  | abandon {c : Clients α} {a : α} (ha : c.seat a = .queued) :
      Move c ⟨c.lock.abandon a, Function.update c.seat a .away, Function.update c.thrown a false⟩
  | cancelWait {c : Clients α} {a : α} (ha : c.seat a = .queued) :
      Move c ⟨c.lock.cancelWait a, c.seat, Function.update c.thrown a true⟩
  | throw {c : Clients α} {a : α} (ha : c.seat a ≠ .queued) (b : Bool) :
      Move c ⟨c.lock, c.seat, Function.update c.thrown a b⟩

variable {c d : Clients α} {a : α} {m : FifoLock α}

theorem seat_update {x y : Seat} {b : α} (hx : x ≠ y) :
    Function.update c.seat a x b = y ↔ b ≠ a ∧ c.seat b = y := by
  by_cases hb : b = a
  · subst hb
    simp [hx]
  · simp [hb]

namespace Orderly

/-- With nobody inside, the first waiter takes the lock or has been thrown out. -/
theorem first (hi : Orderly c) (hfree : c.lock.holder = none) {flag : Bool} {rest : List (α × Bool)}
    (hw : c.lock.waiters = (a, flag) :: rest) : (c.lock.take a).isSome = true ∨ c.thrown a = true := by
  rcases hi.awake hfree a flag rest hw with hwoken | hflag
  · left
    simp [take, hw, hwoken]
  · right
    refine hi.flagged a ?_
    rw [hw, hflag]
    exact List.mem_cons_self ..

theorem enter (hi : Orderly c) (ha : c.seat a = .away) (h : c.lock.acquire a = (m, true)) :
    Orderly ⟨m, Function.update c.seat a .inside, c.thrown⟩ := by
  simp only [acquire] at h
  split_ifs at h with hc
  · obtain ⟨hfree, -, -⟩ := hc
    obtain rfl := (Prod.mk.inj h).1
    have hnone : ∀ b, c.seat b ≠ .inside := by
      intro b hb
      rw [(hi.inside b).mp hb] at hfree
      simp at hfree
    refine ⟨?_, hi.nodup, ?_, by simp, by simp, hi.flagged⟩
    · intro b
      rw [seat_update (by simp), ← hi.queued b]
      constructor
      · exact And.right
      · intro hb
        refine ⟨?_, hb⟩
        rintro rfl
        rw [ha] at hb
        simp at hb
    · intro b
      by_cases hb : b = a
      · simp [hb]
      · have hne : ¬ a = b := fun h => hb h.symm
        simp [Function.update_of_ne hb, hnone b, hne]
  · simp at h

theorem wait (hi : Orderly c) (ha : c.seat a = .away) (h : c.lock.acquire a = (m, false)) :
    Orderly ⟨m, Function.update c.seat a .queued, c.thrown⟩ := by
  simp only [acquire] at h
  split_ifs at h with hc
  · simp at h
  · obtain rfl := (Prod.mk.inj h).1
    have hnot : a ∉ c.lock.waiters.map Prod.fst := by
      intro hmem
      rw [← hi.queued a, ha] at hmem
      simp at hmem
    refine ⟨?_, ?_, ?_, ?_, ?_, ?_⟩
    · intro b
      have hold := hi.queued b
      by_cases hb : b = a
      · simp [hb]
      · simpa [Function.update_of_ne hb, hb] using hold
    · have hnodup := hi.nodup
      simp only [List.map_append, List.map_cons, List.map_nil]
      exact List.nodup_append.mpr ⟨hnodup, by simp, fun x hx y hy => by
        rintro rfl
        exact hnot (List.mem_singleton.mp hy ▸ hx)⟩
    · intro b
      rw [seat_update (by simp), ← hi.inside b]
      constructor
      · exact And.right
      · intro hb
        refine ⟨?_, hb⟩
        rintro rfl
        rw [ha] at hb
        simp at hb
    · intro hfree b flag rest hw
      cases hold : c.lock.waiters with
      | nil =>
        have hwoken : c.lock.woken = true := by
          by_contra hn
          exact hc ⟨hfree, by simpa using hn, by simp [hold]⟩
        exact .inl hwoken
      | cons w ws =>
        simp only [hold, List.cons_append, List.cons.injEq] at hw
        exact hi.awake hfree b flag ws (by rw [hold, hw.1])
    · intro hwoken
      simp
    · intro b hb
      rcases List.mem_append.mp hb with hold | hnew
      · exact hi.flagged b hold
      · simp at hnew

theorem take (hi : Orderly c) (ha : c.seat a = .queued) (h : c.lock.take a = some m) :
    Orderly ⟨m, Function.update c.seat a .inside, c.thrown⟩ := by
  unfold FifoLock.take at h
  split at h
  · rename_i b flag rest hw
    split_ifs at h with hc
    obtain ⟨hwoken, rfl⟩ := hc
    obtain rfl := Option.some.inj h
    have hfree := c.lock.free_of_woken hwoken
    have hnodup := hi.nodup
    rw [hw] at hnodup
    obtain ⟨hnot, hrest⟩ := List.nodup_cons.mp hnodup
    refine ⟨?_, hrest, ?_, by simp, by simp, ?_⟩
    · intro b'
      have hold := hi.queued b'
      rw [hw] at hold
      rw [seat_update (by simp), hold]
      constructor
      · rintro ⟨hne, hmem⟩
        rcases List.mem_cons.mp hmem with heq | hmem
        · exact absurd heq hne
        · exact hmem
      · intro hmem
        refine ⟨?_, List.mem_cons_of_mem _ hmem⟩
        rintro rfl
        exact hnot hmem
    · intro b'
      by_cases hb : b' = b
      · simp [hb]
      · have hinside := hi.inside b'
        rw [hfree] at hinside
        have hne : ¬ b = b' := fun h => hb h.symm
        simp [Function.update_of_ne hb, hne, hinside]
    · intro b' hb'
      refine hi.flagged b' ?_
      rw [hw]
      exact List.mem_cons_of_mem _ hb'
  · simp at h

theorem leave (hi : Orderly c) (ha : c.seat a = .inside) :
    Orderly ⟨c.lock.release, Function.update c.seat a .away, c.thrown⟩ := by
  refine wakeFirst ?_ hi.nodup ?_ hi.flagged
  · intro b
    rw [seat_update (by simp), ← hi.queued b]
    constructor
    · exact And.right
    · intro hb
      refine ⟨?_, hb⟩
      rintro rfl
      rw [ha] at hb
      simp at hb
  · intro b hb
    obtain ⟨hne, hb⟩ := (seat_update (by simp)).mp hb
    exact hne (hi.holder_unique ha hb)

theorem mem_without {waiters : List (α × Bool)} {b : α} :
    b ∈ (waiters.filter (fun w => w.1 ≠ a)).map Prod.fst ↔ b ≠ a ∧ b ∈ waiters.map Prod.fst := by
  constructor
  · intro h
    obtain ⟨w, hw, rfl⟩ := List.mem_map.mp h
    obtain ⟨hmem, hne⟩ := List.mem_filter.mp hw
    exact ⟨by simpa using hne, List.mem_map_of_mem hmem⟩
  · rintro ⟨hne, h⟩
    obtain ⟨w, hw, rfl⟩ := List.mem_map.mp h
    exact List.mem_map_of_mem (List.mem_filter.mpr ⟨hw, by simpa using hne⟩)

theorem abandon (hi : Orderly c) (ha : c.seat a = .queued) :
    Orderly ⟨c.lock.abandon a, Function.update c.seat a .away, Function.update c.thrown a false⟩ := by
  have hqueued : ∀ b, Function.update c.seat a .away b = .queued ↔
      b ∈ (c.lock.waiters.filter (fun w => w.1 ≠ a)).map Prod.fst := by
    intro b
    rw [seat_update (by simp), hi.queued b, mem_without]
  have hnodup : ((c.lock.waiters.filter (fun w => w.1 ≠ a)).map Prod.fst).Nodup :=
    hi.nodup.sublist (List.filter_sublist.map _)
  have hflagged : ∀ b, (b, true) ∈ c.lock.waiters.filter (fun w => w.1 ≠ a) →
      Function.update c.thrown a false b = true := by
    intro b hb
    obtain ⟨hmem, hne⟩ := List.mem_filter.mp hb
    have hne' : b ≠ a := by simpa using hne
    rw [Function.update_of_ne hne']
    exact hi.flagged b hmem
  unfold FifoLock.abandon
  split
  · rename_i hfree
    refine wakeFirst hqueued hnodup ?_ hflagged
    intro b hb
    obtain ⟨-, hb⟩ := (seat_update (by simp)).mp hb
    rw [(hi.inside b).mp hb] at hfree
    simp at hfree
  · rename_i b hheld
    refine ⟨hqueued, hnodup, ?_, by simp, by simp, hflagged⟩
    intro b'
    rw [seat_update (by simp), hi.inside b', hheld]
    constructor
    · exact And.right
    · intro hb'
      refine ⟨?_, hb'⟩
      rintro rfl
      rw [(hi.inside b').mpr (hheld.trans hb')] at ha
      simp at ha

theorem waiters_flag {waiters : List (α × Bool)} :
    (waiters.map (fun w => if w.1 = a then (a, true) else w)).map Prod.fst = waiters.map Prod.fst := by
  rw [List.map_map]
  refine List.map_congr_left ?_
  intro w _
  by_cases hw : w.1 = a
  · simp [hw]
  · simp [hw]

theorem cancelWait (hi : Orderly c) :
    Orderly ⟨c.lock.cancelWait a, c.seat, Function.update c.thrown a true⟩ := by
  have hthrown : ∀ b, c.thrown b = true → Function.update c.thrown a true b = true := by
    intro b hb
    by_cases he : b = a
    · simp [he]
    · rwa [Function.update_of_ne he]
  unfold FifoLock.cancelWait
  split_ifs with hhead
  · exact ⟨hi.queued, hi.nodup, hi.inside, hi.awake, hi.waits, fun b hb => hthrown b (hi.flagged b hb)⟩
  · refine ⟨?_, ?_, hi.inside, ?_, ?_, ?_⟩
    · simpa only [waiters_flag] using hi.queued
    · simpa only [waiters_flag] using hi.nodup
    · intro hfree b flag rest hw
      cases hold : c.lock.waiters with
      | nil => simp [hold] at hw
      | cons w ws =>
        have hawake := hi.awake hfree w.1 w.2 ws hold
        simp only [hold, List.map_cons, List.cons.injEq] at hw
        rcases hawake with hwoken | hflag
        · exact .inl hwoken
        · right
          have hfirst := hw.1
          split_ifs at hfirst
          · exact (Prod.mk.inj hfirst).2.symm
          · rw [hfirst] at hflag
            exact hflag
    · intro hwoken
      have h := hi.waits hwoken
      simpa using h
    · intro b hb
      obtain ⟨w, hw, heq⟩ := List.mem_map.mp hb
      split_ifs at heq with he
      · obtain rfl := (Prod.mk.inj heq).1
        simp
      · rw [heq] at hw
        exact hthrown b (hi.flagged b hw)

theorem throw (hi : Orderly c) (ha : c.seat a ≠ .queued) (b : Bool) :
    Orderly ⟨c.lock, c.seat, Function.update c.thrown a b⟩ := by
  refine ⟨hi.queued, hi.nodup, hi.inside, hi.awake, hi.waits, ?_⟩
  intro b' hb'
  have hne : b' ≠ a := by
    rintro rfl
    exact ha ((hi.queued b').mpr (List.mem_map_of_mem hb'))
  show Function.update c.thrown a b b' = true
  rw [Function.update_of_ne hne]
  exact hi.flagged b' hb'

theorem move (hm : Move c d) (hi : Orderly c) : Orderly d := by
  cases hm with
  | enter ha h => exact hi.enter ha h
  | wait ha h => exact hi.wait ha h
  | take ha h => exact hi.take ha h
  | leave ha => exact hi.leave ha
  | abandon ha => exact hi.abandon ha
  | cancelWait ha => exact hi.cancelWait
  | throw ha b => exact hi.throw ha b

theorem moves (hm : Relation.ReflTransGen Move c d) (hi : Orderly c) : Orderly d := by
  induction hm with
  | refl => exact hi
  | tail _ hstep ih => exact ih.move hstep

end Orderly

end Clients

end FifoLock
