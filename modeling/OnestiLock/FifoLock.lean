import Mathlib.Data.List.Basic

/-! A first-come-first-served lock whose waiters can be cancelled, with the
scheduling of `asyncio.Lock`: the release wakes the first waiter, which takes
the lock only when it runs. -/

/-- Each waiter carries whether its wait was cancelled. `woken` says that the
first waiter has been told to run. -/
structure FifoLock (α : Type*) where
  holder : Option α
  waiters : List (α × Bool)
  woken : Bool
  free_of_woken : woken = true → holder = none

namespace FifoLock

variable {α : Type*} {l m : FifoLock α} {a : α}

def free : FifoLock α := ⟨none, [], false, fun h => by simp at h⟩

/-- Take the lock at once, or join the queue. -/
def acquire (l : FifoLock α) (a : α) : FifoLock α × Bool :=
  if l.holder = none ∧ l.woken = false ∧ ∀ w ∈ l.waiters, w.2 = true then
    (⟨some a, l.waiters, false, fun h => by simp at h⟩, true)
  else ({ l with waiters := l.waiters ++ [(a, false)] }, false)

/-- Wake the first waiter, unless it was cancelled, of a lock nobody holds. -/
def wakeFirst (waiters : List (α × Bool)) : FifoLock α :=
  match waiters with
  | (_, false) :: _ => ⟨none, waiters, true, fun _ => rfl⟩
  | _ => ⟨none, waiters, false, fun _ => rfl⟩

def release (l : FifoLock α) : FifoLock α := wakeFirst l.waiters

theorem holder_of_acquire (h : l.acquire a = (m, true)) : l.holder = none ∧ m.holder = some a := by
  simp only [acquire] at h
  split_ifs at h with hc
  · exact ⟨hc.1, by rw [← (Prod.mk.inj h).1]⟩
  · simp at h

theorem holder_of_acquire_wait (h : l.acquire a = (m, false)) : m.holder = l.holder := by
  simp only [acquire] at h
  split_ifs at h with hc
  · simp at h
  · rw [← (Prod.mk.inj h).1]

@[simp] theorem holder_wakeFirst (waiters : List (α × Bool)) : (wakeFirst waiters).holder = none := by
  unfold wakeFirst
  split <;> rfl

@[simp] theorem holder_release : l.release.holder = none := holder_wakeFirst _

section

variable [DecidableEq α]

/-- The first waiter, woken, runs and takes the lock. -/
def take (l : FifoLock α) (a : α) : Option (FifoLock α) :=
  match l.waiters with
  | (b, _) :: rest =>
    if l.woken = true ∧ b = a then some ⟨some a, rest, false, fun h => by simp at h⟩ else none
  | [] => none

/-- A cancellation reaches a waiter. One that was woken already stays woken. -/
def cancelWait (l : FifoLock α) (a : α) : FifoLock α :=
  if l.woken = true ∧ l.waiters.head?.map Prod.fst = some a then l
  else { l with waiters := l.waiters.map (fun w => if w.1 = a then (a, true) else w) }

/-- A cancelled waiter runs: it leaves the queue and hands a free lock on. -/
def abandon (l : FifoLock α) (a : α) : FifoLock α :=
  match l.holder with
  | none => wakeFirst (l.waiters.filter (fun w => w.1 ≠ a))
  | some b => ⟨some b, l.waiters.filter (fun w => w.1 ≠ a), false, fun h => by simp at h⟩

theorem holder_of_take (h : l.take a = some m) : l.holder = none ∧ m.holder = some a := by
  unfold take at h
  split at h
  · split_ifs at h with hc
    exact ⟨l.free_of_woken hc.1, by rw [← Option.some.inj h]⟩
  · simp at h

@[simp] theorem holder_cancelWait : (l.cancelWait a).holder = l.holder := by
  unfold cancelWait
  split <;> rfl

@[simp] theorem holder_abandon : (l.abandon a).holder = l.holder := by
  unfold abandon
  split
  · rename_i h
    rw [holder_wakeFirst, h]
  · rename_i h
    rw [h]

end

end FifoLock
