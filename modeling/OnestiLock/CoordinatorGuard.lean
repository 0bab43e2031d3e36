import OnestiLock.CoordinatorMoves

/-! The slots that commands go out for. `_check_writable` runs at the call, and
the send may come after a settings write. -/

namespace OnestiLock

open Transition

/-- A new setting leaves the operations that wait for the PIN lock writable. -/
def KeepsWaitingWritable (w : EntryState) : Turn → Prop
  | .settings reservedSlots => ∀ tid cid op, w.pins tid = some (cid, op, .acquiring) →
      firstUserSlot (w.entry.options.set confReservedSlots (.integer reservedSlots)) ≤ op.slot
  | _ => True

/-- Every operation that waits for the PIN lock is on a slot at or above a bound. -/
def WaitingFrom (w : EntryState) (first : Int) : Prop :=
  ∀ tid cid op, w.pins tid = some (cid, op, .acquiring) → first ≤ op.slot

theorem firstUserSlot_congr {a b : Options}
    (h : a.rest confReservedSlots = b.rest confReservedSlots) : firstUserSlot a = firstUserSlot b := by
  unfold firstUserSlot
  rw [h]

/-- Only a settings write moves the first user slot. -/
theorem firstUserSlot_step {w t : EntryState} {turn : Turn} (h : w.step turn = some t)
    (hset : ∀ n, turn ≠ .settings n) :
    firstUserSlot t.entry.options = firstUserSlot w.entry.options := by
  apply firstUserSlot_congr
  have hrest : t.store.rest = ((completions (w.events turn)).foldl Store.apply w.store).rest :=
    congrArg Store.rest (EntryState.store_step h)
  have hkeep : ((completions (w.events turn)).foldl Store.apply w.store).rest confReservedSlots =
      w.store.rest confReservedSlots := by
    unfold EntryState.events
    split
    · split <;> rfl
    · split
      · split_ifs <;> rfl
      · rfl
    · have hne : confReservedSlots ≠ optionCapabilities := by decide
      simp only [completions, List.filterMap_cons, List.filterMap_nil, List.foldl_cons, List.foldl_nil,
        Store.apply, Function.update_of_ne hne]
    · rfl
    · exact absurd rfl (hset _)
    · rfl
  exact (congrFun hrest confReservedSlots).trans hkeep

/-- What waits after a turn waited before it, or is a call the guard let in. -/
theorem waiting_step {w t : EntryState} {turn : Turn} {tid : JobId} {cid : CoordinatorId}
    {op : PinOp} (h : w.step turn = some t) (ht : t.pins tid = some (cid, op, .acquiring)) :
    w.pins tid = some (cid, op, .acquiring) ∨
      (firstUserSlot w.entry.options ≤ op.slot ∧ turn = .call tid cid op) := by
  have hother : ∀ {a v}, t.pins = Function.update w.pins a v →
      (∀ cid op, v ≠ some (cid, op, .acquiring)) → w.pins tid = some (cid, op, .acquiring) := by
    intro a v hpins hv
    rw [hpins] at ht
    by_cases ha : tid = a
    · rw [ha, Function.update_self] at ht
      exact absurd ht (hv cid op)
    · rwa [Function.update_of_ne ha] at ht
  cases EntryState.step_pinMove h with
  | quiet same hexec hpin => exact Or.inl (same.1 ▸ ht)
  | @wait a cid' op' idle writable hpins hholder =>
    rw [hpins] at ht
    by_cases ha : tid = a
    · rw [ha, Function.update_self] at ht
      cases ht
      exact Or.inr ⟨writable, by rw [ha]⟩
    · rw [Function.update_of_ne ha] at ht
      exact Or.inl ht
  | start idle writable free hpins hholder => exact Or.inl (hother hpins (by simp))
  | take waiting free hpins hholder => exact Or.inl (hother hpins (by simp))
  | execute sending hpins hholder => exact Or.inl (hother hpins (by simp))
  | finish sending taken hpins hholder => exact Or.inl (hother hpins (by simp))
  | leaveQueue waiting hpins hholder => exact Or.inl (hother hpins (by simp))
  | leaveSend sending hpins hholder => exact Or.inl (hother hpins (by simp))

theorem waiting_writable {w t : EntryState} {turn : Turn}
    (hw : WaitingFrom w (firstUserSlot w.entry.options)) (hg : KeepsWaitingWritable w turn)
    (h : w.step turn = some t) : WaitingFrom t (firstUserSlot t.entry.options) := by
  intro tid cid op ht
  by_cases hset : ∃ n, turn = .settings n
  · obtain ⟨n, rfl⟩ := hset
    simp only [EntryState.step] at h
    split_ifs at h
    rw [← Option.some.inj h] at ht ⊢
    exact hg tid cid op ht
  · rw [firstUserSlot_step h (fun n he => hset ⟨n, he⟩)]
    rcases waiting_step h ht with hwait | ⟨hle, -⟩
    · exact hw tid cid op hwait
    · exact hle

theorem waiting_pos {w t : EntryState} {turn : Turn} (hw : WaitingFrom w reservedSlotsMin)
    (h : w.step turn = some t) : WaitingFrom t reservedSlotsMin := by
  intro tid cid op ht
  rcases waiting_step h ht with hwait | ⟨hle, -⟩
  · exact hw tid cid op hwait
  · exact (firstUserSlot_range _).1.trans hle

/-- A command that goes out was waiting or has just been let in. -/
theorem sends_step {t r : EntryState} {turn : Turn} {tid : JobId} {op : PinOp}
    (hstep : t.step turn = some r) (hbefore : t.inFlight tid = none)
    (hafter : r.inFlight tid = some op) :
    firstUserSlot r.entry.options = firstUserSlot t.entry.options ∧
      ((∃ cid, t.pins tid = some (cid, op, .acquiring)) ∨
        firstUserSlot t.entry.options ≤ op.slot) := by
  obtain ⟨cid, request, executed, hr⟩ := inFlight_eq_some.mp hafter
  have hnot : ∀ c o q e, t.pins tid ≠ some (c, o, .sending q e) := by
    intro c o q e h
    rw [inFlight_eq_some.mpr ⟨c, q, e, h⟩] at hbefore
    cases hbefore
  have hother : ∀ {a v}, r.pins = Function.update t.pins a v →
      (∀ c o q e, v = some (c, o, .sending q e) → tid ≠ a) → False := by
    intro a v hpins hv
    rw [hpins] at hr
    by_cases ha : tid = a
    · rw [ha, Function.update_self] at hr
      exact hv _ _ _ _ hr ha
    · rw [Function.update_of_ne ha] at hr
      exact hnot _ _ _ _ hr
  cases EntryState.step_pinMove hstep with
  | quiet same hexec hpin => exact absurd (same.1 ▸ hr) (hnot _ _ _ _)
  | wait idle writable hpins hholder => exact absurd (hother hpins (by simp)) not_false
  | @start a cid' op' idle writable free hpins hholder =>
    refine ⟨firstUserSlot_step hstep (by simp), Or.inr ?_⟩
    rw [hpins] at hr
    by_cases ha : tid = a
    · rw [ha, Function.update_self] at hr
      cases hr
      exact writable
    · rw [Function.update_of_ne ha] at hr
      exact absurd hr (hnot _ _ _ _)
  | @take a cid' op' waiting free hpins hholder =>
    refine ⟨firstUserSlot_step hstep (by simp), Or.inl ?_⟩
    rw [hpins] at hr
    by_cases ha : tid = a
    · rw [ha, Function.update_self] at hr
      cases hr
      exact ⟨cid, ha ▸ waiting⟩
    · rw [Function.update_of_ne ha] at hr
      exact absurd hr (hnot _ _ _ _)
  | @execute a cid' op' request' executed' sending hpins hholder =>
    refine absurd (hother hpins ?_) not_false
    rintro c o q e - rfl
    exact hnot _ _ _ _ sending
  | finish sending taken hpins hholder => exact absurd (hother hpins (by simp)) not_false
  | leaveQueue waiting hpins hholder => exact absurd (hother hpins (by simp)) not_false
  | leaveSend sending hpins hholder => exact absurd (hother hpins (by simp)) not_false

/-- A command is for a slot that may be written as the settings stand, unless
they reserved it while the operation waited; and it is never for slot 0. -/
theorem sends_writable {w t r : EntryState} {turns : List Turn} {turn : Turn}
    (hw : ∀ tid, w.pins tid = none) (hrun : exec EntryState.step w turns = some t)
    (hstep : t.step turn = some r) {tid : JobId} {op : PinOp}
    (hbefore : t.inFlight tid = none) (hafter : r.inFlight tid = some op) :
    reservedSlotsMin ≤ op.slot ∧
      (Along EntryState.step KeepsWaitingWritable w turns →
        firstUserSlot r.entry.options ≤ op.slot) := by
  have hstart : ∀ first, WaitingFrom w first := by
    intro first tid cid op h
    rw [hw] at h
    cases h
  obtain ⟨hsame, hsent⟩ := sends_step hstep hbefore hafter
  constructor
  · have hpos : WaitingFrom t reservedSlotsMin :=
      exec_invariant (fun _ _ _ hs ht => waiting_pos hs ht) (hstart _) hrun
    rcases hsent with ⟨cid, hwait⟩ | hle
    · exact hpos tid cid op hwait
    · exact (firstUserSlot_range _).1.trans hle
  · intro hg
    have hwr : WaitingFrom t (firstUserSlot t.entry.options) :=
      exec_invariant_along (I := fun s => WaitingFrom s (firstUserSlot s.entry.options))
        (fun _ _ _ hs hg ht => waiting_writable hs hg ht) (hstart _) hg hrun
    rw [hsame]
    rcases hsent with ⟨cid, hwait⟩ | hle
    · exact hwr tid cid op hwait
    · exact hle

/-- A settings write reserves slot 2 while a write to it waits. -/
def reservedTurns (reserved : Int) : List Turn :=
  [.build 0, .publish 0, .call 1 0 (.setPin 5 "Ola" "56789"), .call 2 0 (.setPin 2 "Kari" "4321"),
    .settings reserved, .executes 1, .answered 1 .ofDelivered 3]

theorem keepsWaitingWritable_of_least {w : EntryState} {turns : List Turn}
    (hw : WaitingFrom w reservedSlotsMin) (hturns : ∀ n, .settings n ∈ turns → n ≤ reservedSlotsMin) :
    Along EntryState.step KeepsWaitingWritable w turns := by
  induction turns generalizing w with
  | nil => exact trivial
  | cons turn turns ih =>
    refine ⟨?_, fun t ht => ih (waiting_pos hw ht) (fun n h => hturns n (List.mem_cons_of_mem _ h))⟩
    cases turn with
    | settings n =>
      intro tid cid op hwait
      have hle := hw tid cid op hwait
      have hn := hturns n List.mem_cons_self
      have hfirst : firstUserSlot (w.entry.options.set confReservedSlots (.integer n)) =
          max reservedSlotsMin (min reservedSlotsMax n) := by
        simp only [firstUserSlot, Options.set, Function.update_self]
      rw [hfirst]
      omega
    | _ => exact trivial

theorem sends_writable_waited :
    ∃ t r, exec EntryState.step (.fresh keptOptions) (reservedTurns 1) = some t ∧
      t.step (.acquired 2) = some r ∧ firstUserSlot r.entry.options ≤ 2 := by
  have hrun : (exec EntryState.step (.fresh keptOptions) (reservedTurns 1)).map
      (fun t => (t.inFlight 2, (t.step (.acquired 2)).map (fun r => r.inFlight 2))) =
        some (none, some (some (.setPin 2 "Kari" "4321"))) := by decide +kernel
  obtain ⟨t, ht, he⟩ := Option.map_eq_some_iff.mp hrun
  simp only [Prod.mk.injEq] at he
  obtain ⟨r, hr, hafter⟩ := Option.map_eq_some_iff.mp he.2
  have hg : Along EntryState.step KeepsWaitingWritable (.fresh keptOptions) (reservedTurns 1) := by
    apply keepsWaitingWritable_of_least
    · intro tid cid op h
      cases h
    · simp [reservedTurns, reservedSlotsMin]
  exact ⟨t, r, ht, hr, (sends_writable (fun _ => rfl) ht hr he.1 hafter).2 hg⟩

/-- The command for slot 2 goes out with slots 0 to 2 reserved. -/
theorem sends_reserved_slot :
    ∃ t r, exec EntryState.step (.fresh keptOptions) (reservedTurns 3) = some t ∧
      t.step (.acquired 2) = some r ∧ t.inFlight 2 = none ∧
      r.inFlight 2 = some (.setPin 2 "Kari" "4321") ∧ firstUserSlot r.entry.options = 3 := by
  have hrun : (exec EntryState.step (.fresh keptOptions) (reservedTurns 3)).map
      (fun t => (t.inFlight 2, (t.step (.acquired 2)).map
        (fun r => (r.inFlight 2, firstUserSlot r.entry.options)))) =
        some (none, some (some (.setPin 2 "Kari" "4321"), 3)) := by decide +kernel
  obtain ⟨t, ht, he⟩ := Option.map_eq_some_iff.mp hrun
  simp only [Prod.mk.injEq] at he
  obtain ⟨r, hr, hafter⟩ := Option.map_eq_some_iff.mp he.2
  simp only [Prod.mk.injEq] at hafter
  exact ⟨t, r, ht, hr, he.1, hafter.1, hafter.2⟩

end OnestiLock
