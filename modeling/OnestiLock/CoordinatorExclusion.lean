import OnestiLock.CoordinatorMoves

/-! One PIN operation at a time: `_pin_lock` sees to it among the calls on one
coordinator, and to nothing between two coordinators of the same entry. -/

namespace OnestiLock

open Transition

/-- A PIN operation is called while none of another coordinator is unfinished. -/
def CalledAlone (w : EntryState) : Turn → Prop
  | .call _ cid _ => ∀ other p, w.pins other = some p → p.1 = cid
  | _ => True

/-- Every PIN operation is on one coordinator, and the one that sends holds its lock. -/
structure Alone (w : EntryState) : Prop where
  same : ∀ {a b p q}, w.pins a = some p → w.pins b = some q → p.1 = q.1
  held : Held w

namespace Alone

variable {w t : EntryState}

theorem inFlight_unique (h : Alone w) {a b : JobId} {p q : PinOp} (ha : w.inFlight a = some p)
    (hb : w.inFlight b = some q) : a = b := by
  obtain ⟨cid, request, executed, ha⟩ := inFlight_eq_some.mp ha
  obtain ⟨cid', request', executed', hb⟩ := inFlight_eq_some.mp hb
  obtain rfl : cid = cid' := h.same ha hb
  exact Held.unique h.held ha hb

theorem of_none (h : ∀ tid, w.pins tid = none) : Alone w where
  same ha _ := by simp [h] at ha
  held ha := by simp [h] at ha

theorem same_update {tid : JobId} {cid : CoordinatorId} {op : PinOp} {stage : PinStage}
    (hcid : ∀ other p, w.pins other = some p → p.1 = cid) {a b : JobId}
    {p q : CoordinatorId × PinOp × PinStage}
    (ha : Function.update w.pins tid (some (cid, op, stage)) a = some p)
    (hb : Function.update w.pins tid (some (cid, op, stage)) b = some q) : p.1 = q.1 := by
  have hone : ∀ {c x}, Function.update w.pins tid (some (cid, op, stage)) c = some x → x.1 = cid := by
    intro c x hc
    by_cases he : c = tid
    · rw [he, Function.update_self] at hc
      exact congrArg Prod.fst (Option.some.inj hc).symm
    · rw [Function.update_of_ne he] at hc
      exact hcid c x hc
  exact (hone ha).trans (hone hb).symm

theorem step {turn : Turn} (h : Alone w) (hg : CalledAlone w turn) (hm : PinMove w t turn) :
    Alone t := by
  refine ⟨?_, Held.step h.held hm⟩
  intro a b p q ha hb
  cases hm with
  | quiet same hexec hpin => exact h.same (same.1 ▸ ha) (same.1 ▸ hb)
  | wait idle writable hpins hholder =>
    rw [hpins] at ha hb
    exact same_update hg ha hb
  | start idle writable free hpins hholder =>
    rw [hpins] at ha hb
    exact same_update hg ha hb
  | take waiting free hpins hholder =>
    rw [hpins] at ha hb
    exact same_update (fun _ _ ho => h.same ho waiting) ha hb
  | execute sending hpins hholder =>
    rw [hpins] at ha hb
    exact same_update (fun _ _ ho => h.same ho sending) ha hb
  | finish sending taken hpins hholder =>
    rw [hpins] at ha hb
    exact h.same (pins_of_update_none ha).2 (pins_of_update_none hb).2
  | leaveQueue waiting hpins hholder =>
    rw [hpins] at ha hb
    exact h.same (pins_of_update_none ha).2 (pins_of_update_none hb).2
  | leaveSend sending hpins hholder =>
    rw [hpins] at ha hb
    exact h.same (pins_of_update_none ha).2 (pins_of_update_none hb).2

end Alone

/-! The record of a slot and the last operation on it. -/

/-- The last of some operations that is on a slot. -/
def lastOn (slot : Int) (ops : List PinOp) : Option PinOp :=
  (ops.filter (fun op => op.slot = slot)).getLast?

/-- The PIN operations that were saved, in order. -/
def saves (h : List Event) : List PinOp :=
  (completions h).filterMap fun
    | .pin op => some op
    | .name .. | .capabilities _ | .settings _ => none

/-- What the lock executed is reported delivered. -/
def Reported (w : EntryState) : Turn → Prop
  | .answered tid outcome _ => outcome.delivered = false →
      ∀ cid op request, w.pins tid ≠ some (cid, op, .sending request true)
  | .unwind tid => ∀ cid op request, w.pins tid ≠ some (cid, op, .sending request true)
  | _ => True

theorem executions_append (h k : List Event) :
    executions (h ++ k) = executions h ++ executions k := List.filterMap_append ..

theorem saves_append (h k : List Event) : saves (h ++ k) = saves h ++ saves k := by
  rw [saves, EntryState.completions_append, List.filterMap_append]
  rfl

theorem lastOn_append_self (op : PinOp) (ops : List PinOp) :
    lastOn op.slot (ops ++ [op]) = some op := by
  simp [lastOn, List.filter_append]

theorem lastOn_append_of_ne {op : PinOp} {slot : Int} (h : op.slot ≠ slot) (ops : List PinOp) :
    lastOn slot (ops ++ [op]) = lastOn slot ops := by
  simp [lastOn, List.filter_append, h]

theorem saves_of_no_pin {h : List Event} (hp : ∀ op, Effect.pin op ∉ completions h) :
    saves h = [] := by
  rw [saves, List.filterMap_eq_nil_iff]
  intro e he
  cases e with
  | pin op => exact absurd he (hp op)
  | name slot name => rfl
  | capabilities reported => rfl
  | settings reservedSlots => rfl

/-- The lock has executed the operation a job has in flight. -/
def EntryState.Executing (w : EntryState) (tid : JobId) (op : PinOp) : Prop :=
  ∃ cid request, w.pins tid = some (cid, op, .sending request true)

/-- On each slot the last operation saved is the last one executed, unless that
one is still in flight. -/
def Described (w : EntryState) (h : List Event) : Prop :=
  ∀ slot, (∃ tid op, w.Executing tid op ∧ op.slot = slot ∧
      lastOn slot (executions h) = some op) ∨
    ((∀ tid op, w.Executing tid op → op.slot ≠ slot) ∧
      lastOn slot (executions h) = lastOn slot (saves h))

namespace Described

variable {w t : EntryState} {h : List Event}

theorem congr {h' : List Event} (hd : Described w h)
    (hexec : ∀ tid op, t.Executing tid op ↔ w.Executing tid op)
    (hex : executions h' = executions h) (hsv : saves h' = saves h) : Described t h' := by
  intro slot
  rw [hex, hsv]
  rcases hd slot with ⟨tid, op, he, hs, hl⟩ | ⟨hno, hl⟩
  · exact Or.inl ⟨tid, op, (hexec tid op).mpr he, hs, hl⟩
  · exact Or.inr ⟨fun tid op he => hno tid op ((hexec tid op).mp he), hl⟩

theorem executing_update {tid : JobId} {v : Option (CoordinatorId × PinOp × PinStage)}
    (hpins : t.pins = Function.update w.pins tid v)
    (hw : ∀ cid op request, w.pins tid ≠ some (cid, op, .sending request true))
    (hv : ∀ cid op request, v ≠ some (cid, op, .sending request true)) (a : JobId) (op : PinOp) :
    t.Executing a op ↔ w.Executing a op := by
  unfold EntryState.Executing
  rw [hpins]
  by_cases he : a = tid
  · rw [he, Function.update_self]
    constructor
    · rintro ⟨cid, request, h⟩
      exact absurd h (hv cid op request)
    · rintro ⟨cid, request, h⟩
      exact absurd h (hw cid op request)
  · rw [Function.update_of_ne he]

theorem executing_inFlight {tid : JobId} {op : PinOp} (h : w.Executing tid op) :
    w.inFlight tid = some op := by
  obtain ⟨cid, request, hp⟩ := h
  exact inFlight_eq_some.mpr ⟨cid, request, true, hp⟩

/-- While an operation is in flight no other slot has one that the lock executed. -/
theorem of_inFlight (hd : Described w h) (ha : Alone w) {tid : JobId} {op : PinOp}
    (hf : w.inFlight tid = some op) {slot : Int} (hs : op.slot ≠ slot) :
    lastOn slot (executions h) = lastOn slot (saves h) := by
  rcases hd slot with ⟨a, op', he, hs', -⟩ | ⟨-, hl⟩
  · have hfa := executing_inFlight he
    obtain rfl := ha.inFlight_unique hf hfa
    obtain rfl := Option.some.inj (hf.symm.trans hfa)
    exact absurd hs' hs
  · exact hl

theorem execute {tid : JobId} {cid : CoordinatorId} {op : PinOp} {request : ClusterCommand}
    {executed : Bool} (hd : Described w h) (ha : Alone w) (ha' : Alone t)
    (hsend : w.pins tid = some (cid, op, .sending request executed))
    (hpins : t.pins = Function.update w.pins tid (some (cid, op, .sending request true)))
    {events : List Event} (hev : events = [.executed op]) : Described t (h ++ events) := by
  have hself : t.Executing tid op := ⟨cid, request, by rw [hpins, Function.update_self]⟩
  have hsv : saves (h ++ events) = saves h := by
    rw [saves_append, hev]
    exact List.append_nil _
  have hex : executions (h ++ events) = executions h ++ [op] := by
    rw [executions_append, hev]
    rfl
  intro slot
  rw [hsv, hex]
  by_cases hs : op.slot = slot
  · subst hs
    exact Or.inl ⟨tid, op, hself, rfl, lastOn_append_self op _⟩
  · refine Or.inr ⟨fun a op' he => ?_, ?_⟩
    · have hfa := executing_inFlight he
      have hft := executing_inFlight hself
      obtain rfl := ha'.inFlight_unique hft hfa
      obtain rfl := Option.some.inj (hft.symm.trans hfa)
      exact hs
    · rw [lastOn_append_of_ne hs]
      exact hd.of_inFlight ha (inFlight_eq_some.mpr ⟨cid, request, executed, hsend⟩) hs

theorem save {tid : JobId} {cid : CoordinatorId} {op : PinOp} {request : ClusterCommand}
    (hd : Described w h) (ha : Alone w)
    (hsend : w.pins tid = some (cid, op, .sending request true))
    (hpins : t.pins = Function.update w.pins tid none)
    {events : List Event} (hev : events = [.completed (.pin op)]) : Described t (h ++ events) := by
  have hft : w.inFlight tid = some op := inFlight_eq_some.mpr ⟨cid, request, true, hsend⟩
  have hsv : saves (h ++ events) = saves h ++ [op] := by
    rw [saves_append, hev]
    rfl
  have hex : executions (h ++ events) = executions h := by
    rw [executions_append, hev]
    exact List.append_nil _
  intro slot
  rw [hsv, hex]
  refine Or.inr ⟨fun a op' he => ?_, ?_⟩
  · obtain ⟨cid', request', hp⟩ := he
    rw [hpins] at hp
    obtain ⟨hne, hp⟩ := pins_of_update_none hp
    exact absurd (ha.inFlight_unique (inFlight_eq_some.mpr ⟨cid', request', true, hp⟩) hft) hne
  · by_cases hs : op.slot = slot
    · subst hs
      rw [lastOn_append_self]
      rcases hd op.slot with ⟨a, op', he, -, hl⟩ | ⟨hno, -⟩
      · have hfa := executing_inFlight he
        obtain rfl := ha.inFlight_unique hft hfa
        obtain rfl := Option.some.inj (hft.symm.trans hfa)
        exact hl
      · exact absurd rfl (hno tid op ⟨cid, request, hsend⟩)
    · rw [lastOn_append_of_ne hs]
      exact hd.of_inFlight ha hft hs

theorem events_executes {tid : JobId} {cid : CoordinatorId} {op : PinOp} {request : ClusterCommand}
    {executed : Bool} (hs : w.pins tid = some (cid, op, .sending request executed)) :
    w.events (.executes tid) = [.executed op] := by
  unfold EntryState.pins Job.pinPart at hs
  split at hs
  · rename_i hjob
    cases hs
    simp only [EntryState.events, hjob]
  all_goals cases hs

theorem events_answered {tid background : JobId} {cid : CoordinatorId} {op : PinOp}
    {request : ClusterCommand} {executed : Bool} {outcome : SendOutcome}
    (hs : w.pins tid = some (cid, op, .sending request executed)) :
    w.events (.answered tid outcome background) =
      if outcome.delivered then [.completed (.pin op)] else [] := by
  unfold EntryState.pins Job.pinPart at hs
  split at hs
  · rename_i hjob
    cases hs
    simp only [EntryState.events, hjob]
  all_goals cases hs

theorem nothing_new {events : List Event} (hd : Described w h)
    (hexec : ∀ tid op, t.Executing tid op ↔ w.Executing tid op)
    (hex : executions events = []) (hsv : saves events = []) : Described t (h ++ events) := by
  refine hd.congr hexec ?_ ?_
  · rw [executions_append, hex, List.append_nil]
  · rw [saves_append, hsv, List.append_nil]

theorem step {turn : Turn} (hd : Described w h) (ha : Alone w) (hr : Reported w turn)
    (hm : PinMove w t turn) (ha' : Alone t) : Described t (h ++ w.events turn) := by
  cases hm with
  | quiet same hexec hpin =>
    refine hd.nothing_new (fun tid op => ?_) hexec (saves_of_no_pin hpin)
    unfold EntryState.Executing
    rw [same.1]
  | wait idle writable hpins hholder =>
    exact hd.nothing_new (executing_update hpins (by simp [idle]) (by simp)) rfl rfl
  | start idle writable free hpins hholder =>
    exact hd.nothing_new (executing_update hpins (by simp [idle]) (by simp)) rfl rfl
  | take waiting free hpins hholder =>
    exact hd.nothing_new (executing_update hpins (by simp [waiting]) (by simp)) rfl rfl
  | execute sending hpins hholder =>
    exact hd.execute ha ha' sending hpins (events_executes sending)
  | @finish tid cid op request executed outcome background sending taken hpins hholder =>
    by_cases hdel : outcome.delivered = true
    · obtain rfl := taken hdel
      exact hd.save ha sending hpins (by rw [events_answered sending, if_pos hdel])
    · have hnot := hr (by simpa using hdel)
      have hev : w.events (.answered tid outcome background) = [] := by
        rw [events_answered sending, if_neg hdel]
      rw [hev]
      exact hd.nothing_new (executing_update hpins hnot (by simp)) rfl rfl
  | leaveQueue waiting hpins hholder =>
    exact hd.nothing_new (executing_update hpins hr (by simp)) rfl rfl
  | leaveSend sending hpins hholder =>
    exact hd.nothing_new (executing_update hpins hr (by simp)) rfl rfl

end Described

theorem hasPin_foldl (s : Store) (effects : List Effect) {slot : Int} {op : PinOp}
    (h : lastOn slot (effects.filterMap fun
      | .pin op => some op
      | .name .. | .capabilities _ | .settings _ => none) = some op) :
    ((effects.foldl Store.apply s).slots slot).hasPin = op.leavesPin := by
  induction effects using List.reverseRecOn with
  | nil => simp [lastOn] at h
  | append_singleton es e ih =>
    rw [List.foldl_append]
    rw [List.filterMap_append] at h
    cases e with
    | pin op' =>
      change lastOn slot (_ ++ [op']) = some op at h
      by_cases hs : op'.slot = slot
      · subst hs
        rw [lastOn_append_self] at h
        obtain rfl := Option.some.inj h
        simp only [List.foldl_cons, List.foldl_nil, Store.apply, Function.update_self]
        exact PinOp.hasPin_apply ..
      · rw [lastOn_append_of_ne hs] at h
        have hne : (Effect.pin op').slot? ≠ some slot := fun he => hs (Option.some.inj he)
        exact (congrArg Slot.hasPin (Store.slots_apply_of_ne hne)).trans (ih h)
    | name other name =>
      rw [show List.filterMap _ [Effect.name other name] = ([] : List PinOp) from rfl,
        List.append_nil] at h
      simp only [List.foldl_cons, List.foldl_nil, Store.apply]
      by_cases hs : slot = other
      · subst hs
        rw [Function.update_self]
        exact ih h
      · rw [Function.update_of_ne hs]
        exact ih h
    | capabilities reported =>
      rw [show List.filterMap _ [Effect.capabilities reported] = ([] : List PinOp) from rfl,
        List.append_nil] at h
      exact ih h
    | settings reservedSlots =>
      rw [show List.filterMap _ [Effect.settings reservedSlots] = ([] : List PinOp) from rfl,
        List.append_nil] at h
      exact ih h

theorem alone_exec {w t : EntryState} {turns : List Turn} (hw : Alone w)
    (hcalls : Along EntryState.step CalledAlone w turns)
    (hrun : exec EntryState.step w turns = some t) : Alone t :=
  exec_invariant_along
    (fun _ _ _ hs hg ht => Alone.step hs hg (EntryState.step_pinMove ht)) hw hcalls hrun

theorem described_exec {w t : EntryState} {turns : List Turn} (hw : ∀ tid, w.pins tid = none)
    (hcalls : Along EntryState.step CalledAlone w turns)
    (hreports : Along EntryState.step Reported w turns)
    (hrun : exec EntryState.step w turns = some t) :
    Described t (history EntryState.step EntryState.events w turns) := by
  have hstart : Alone w ∧ Described w [] := by
    refine ⟨Alone.of_none hw, fun slot => Or.inr ⟨?_, rfl⟩⟩
    rintro tid op ⟨cid, request, hp⟩
    simp [hw] at hp
  have hstep : ∀ (s : EntryState) (past : List Event) (turn : Turn) (r : EntryState),
      Alone s ∧ Described s past → CalledAlone s turn ∧ Reported s turn → s.step turn = some r →
      Alone r ∧ Described r (past ++ s.events turn) := by
    intro s past turn r hs hg hr
    have hm := EntryState.step_pinMove hr
    have ha := hs.1.step hg.1 hm
    exact ⟨ha, hs.2.step hs.1 hg.2 hm ha⟩
  exact (exec_history hstep hstart (hcalls.and hreports) hrun).2

/-- While calls do not meet on two coordinators, one PIN operation at a time is
in flight, and where the transport reports what the lock did, the record of a
slot follows the last operation the lock executed on it. -/
theorem pin_operations_exclusive {w t : EntryState} {turns : List Turn}
    (hw : ∀ tid, w.pins tid = none) (hrun : exec EntryState.step w turns = some t)
    (hcalls : Along EntryState.step CalledAlone w turns) :
    (∀ a b, (t.inFlight a).isSome → (t.inFlight b).isSome → a = b) ∧
      (Along EntryState.step Reported w turns →
        ∀ slot, (∀ tid op, t.inFlight tid = some op → op.slot ≠ slot) →
          let past := history EntryState.step EntryState.events w turns
          lastOn slot (executions past) = lastOn slot (saves past) ∧
            ∀ op, lastOn slot (executions past) = some op →
              (t.store.slots slot).hasPin = op.leavesPin) := by
  constructor
  · intro a b ha hb
    obtain ⟨p, ha⟩ := Option.isSome_iff_exists.mp ha
    obtain ⟨q, hb⟩ := Option.isSome_iff_exists.mp hb
    exact (alone_exec (Alone.of_none hw) hcalls hrun).inFlight_unique ha hb
  · intro hreports slot hslot
    have heq : lastOn slot (executions (history EntryState.step EntryState.events w turns)) =
        lastOn slot (saves (history EntryState.step EntryState.events w turns)) := by
      rcases described_exec hw hcalls hreports hrun slot with ⟨tid, op, he, hs, -⟩ | ⟨-, hl⟩
      · exact absurd hs (hslot tid op (Described.executing_inFlight he))
      · exact hl
    refine ⟨heq, fun op hop => ?_⟩
    rw [EntryState.store_exec hrun]
    exact hasPin_foldl _ _ (heq.symm.trans hop)

/-- Calls on one coordinator alone never meet, as when the entry is not reloaded. -/
theorem calledAlone_of_one {w : EntryState} {cid : CoordinatorId} {turns : List Turn}
    (hw : ∀ a p, w.pins a = some p → p.1 = cid)
    (hturns : ∀ turn ∈ turns, ∀ tid c op, turn = .call tid c op → c = cid) :
    Along EntryState.step CalledAlone w turns := by
  induction turns generalizing w with
  | nil => exact trivial
  | cons turn turns ih =>
    refine ⟨?_, fun t ht => ih ?_ (fun turn' h => hturns turn' (List.mem_cons_of_mem _ h))⟩
    · cases turn with
      | call tid c op =>
        intro a p hp
        exact (hw a p hp).trans (hturns _ List.mem_cons_self tid c op rfl).symm
      | _ => exact trivial
    · intro a p hp
      have hone := hturns turn List.mem_cons_self
      have hset : ∀ {tid c op stage}, c = cid →
          t.pins = Function.update w.pins tid (some (c, op, stage)) → p.1 = cid := by
        intro tid c op stage hc hpins
        rw [hpins] at hp
        by_cases he : a = tid
        · rw [he, Function.update_self] at hp
          exact (congrArg Prod.fst (Option.some.inj hp)).symm.trans hc
        · rw [Function.update_of_ne he] at hp
          exact hw a p hp
      cases EntryState.step_pinMove ht with
      | quiet same hexec hpin => exact hw a p (same.1 ▸ hp)
      | wait idle writable hpins hholder => exact hset (hone _ _ _ rfl) hpins
      | start idle writable free hpins hholder => exact hset (hone _ _ _ rfl) hpins
      | take waiting free hpins hholder => exact hset (hw _ _ waiting) hpins
      | execute sending hpins hholder => exact hset (hw _ _ sending) hpins
      | finish sending taken hpins hholder => exact hw a p (pins_of_update_none (hpins ▸ hp)).2
      | leaveQueue waiting hpins hholder => exact hw a p (pins_of_update_none (hpins ▸ hp)).2
      | leaveSend sending hpins hholder => exact hw a p (pins_of_update_none (hpins ▸ hp)).2

/-- A call on a coordinator whose lock is free sends at once, whatever another
coordinator has in flight. -/
theorem call_overlaps {w : EntryState} {c : Coordinator} {cid : CoordinatorId} {a tid : JobId}
    {op p : PinOp} {lock : FifoLock JobId} (hc : w.coordinators cid = some c)
    (hidle : w.jobs tid = .idle) (hop : firstUserSlot w.entry.options ≤ op.slot)
    (hfree : c.pinLock.acquire tid = (lock, true)) (ha : w.inFlight a = some p) :
    ∃ t, w.step (.call tid cid op) = some t ∧ t.inFlight a = some p ∧ t.inFlight tid = some op := by
  have hpins : w.pins tid = none := by
    rw [EntryState.pins, hidle]
    rfl
  have hne : a ≠ tid := by
    rintro rfl
    simp [EntryState.inFlight, hpins] at ha
  refine ⟨w.callPin c tid cid op, ?_, ?_⟩
  · simp [EntryState.step, hc, hidle]
  · have hcall : w.callPin c tid cid op =
        (w.modify cid (fun c => { c with pinLock := lock })).startSend tid cid op := by
      simp only [EntryState.callPin, checkWritable_ok.mpr hop, hfree]
    rw [hcall]
    unfold EntryState.inFlight EntryState.startSend at *
    rw [EntryState.pins_setJob, Function.update_of_ne hne, Function.update_self]
    exact ⟨ha, rfl⟩

/-- The job a turn is about. -/
def Turn.job? : Turn → Option JobId
  | .call tid .. | .acquired tid | .executes tid | .answered tid .. | .unwind tid => some tid
  | _ => none

theorem pins_step_of_ne {w t : EntryState} {turn : Turn} {a : JobId}
    (h : w.step turn = some t) (ha : turn.job? ≠ some a) : t.pins a = w.pins a := by
  have hother : ∀ {tid v}, t.pins = Function.update w.pins tid v → some tid ≠ some a →
      t.pins a = w.pins a := by
    intro tid v hpins hne
    rw [hpins, Function.update_of_ne (fun he => hne (congrArg some he.symm))]
  cases EntryState.step_pinMove h with
  | quiet same hexec hpin => rw [same.1]
  | wait idle writable hpins hholder => exact hother hpins ha
  | start idle writable free hpins hholder => exact hother hpins ha
  | take waiting free hpins hholder => exact hother hpins ha
  | execute sending hpins hholder => exact hother hpins ha
  | finish sending taken hpins hholder => exact hother hpins ha
  | leaveQueue waiting hpins hholder => exact hother hpins ha
  | leaveSend sending hpins hholder => exact hother hpins ha

theorem pins_exec_of_ne {w t : EntryState} {turns : List Turn} {a : JobId}
    (h : exec EntryState.step w turns = some t) (ha : ∀ turn ∈ turns, turn.job? ≠ some a) :
    t.pins a = w.pins a := by
  induction turns generalizing w with
  | nil => rw [Option.some.inj h]
  | cons turn turns ih =>
    obtain ⟨r, hr, h⟩ := exec_cons.mp h
    rw [ih h (fun turn' hm => ha turn' (List.mem_cons_of_mem _ hm))]
    exact pins_step_of_ne hr (ha turn List.mem_cons_self)

/-- Two operations on one slot, one after the other. -/
def queuedTurns : List Turn :=
  [.build 0, .publish 0, .call 1 0 (.setPin 5 "Ola" "56789"), .call 2 0 (.clearPin 5),
    .executes 1, .answered 1 .ofDelivered 3, .acquired 2, .executes 2, .answered 2 .ofDelivered 4]

theorem pin_operations_exclusive_queued :
    ∃ t, exec EntryState.step (.fresh keptOptions) queuedTurns = some t ∧
      (t.store.slots 5).hasPin = false := by
  have hrun : (exec EntryState.step (.fresh keptOptions) queuedTurns).isSome := by decide +kernel
  obtain ⟨t, ht⟩ := Option.isSome_iff_exists.mp hrun
  have hcalls : Along EntryState.step CalledAlone (.fresh keptOptions) queuedTurns := by
    have hw : ∀ a p, (EntryState.fresh keptOptions).pins a = some p → p.1 = 0 := by
      intro a p hp
      cases hp
    exact calledAlone_of_one hw (by simp [queuedTurns])
  have hreports : Along EntryState.step Reported (.fresh keptOptions) queuedTurns := by
    refine ⟨trivial, fun _ _ => ⟨trivial, fun _ _ => ⟨trivial, fun _ _ => ⟨trivial, fun _ _ =>
      ⟨trivial, fun _ _ => ⟨?_, fun _ _ => ⟨trivial, fun _ _ => ⟨trivial, fun _ _ =>
        ⟨?_, fun _ _ => trivial⟩⟩⟩⟩⟩⟩⟩⟩⟩
    · intro h
      cases h
    · intro h
      cases h
  have hnone : ∀ tid, t.inFlight tid = none := by
    intro tid
    by_cases htid : tid = 1 ∨ tid = 2
    · have heval : ∀ a ∈ [1, 2], (exec EntryState.step (.fresh keptOptions) queuedTurns).map
          (fun t => t.inFlight a) = some none := by decide +kernel
      have h := heval tid (by simpa using htid)
      rw [ht] at h
      exact Option.some.inj h
    · have hpins : t.pins tid = none := pins_exec_of_ne ht (by
        have h1 : 1 ≠ tid := fun he => htid (Or.inl he.symm)
        have h2 : 2 ≠ tid := fun he => htid (Or.inr he.symm)
        simp [queuedTurns, Turn.job?, h1, h2])
      simp only [EntryState.inFlight, hpins]
  have h := (pin_operations_exclusive (fun _ => rfl) ht hcalls).2 hreports 5 (by simp [hnone])
  have hlast : lastOn 5 (executions (history EntryState.step EntryState.events
      (.fresh keptOptions) queuedTurns)) = some (.clearPin 5) := by decide +kernel
  exact ⟨t, ht, h.2 _ hlast⟩

/-- A write that outlives a reload meets a write on the new coordinator. -/
def overlapTurns : List Turn :=
  [.build 0, .publish 0, .call 1 0 (.setPin 5 "Ola" "56789"), .executes 1, .unload, .build 1,
    .publish 1, .call 2 1 (.clearPin 5)]

/-- Both are in flight, and the older one is saved last although the lock
executed the newer one last. -/
theorem reload_overlaps :
    (∃ t, exec EntryState.step (.fresh keptOptions) overlapTurns = some t ∧
      t.inFlight 1 = some (.setPin 5 "Ola" "56789") ∧ t.inFlight 2 = some (.clearPin 5)) ∧
    (let later : List Turn := [.executes 2, .answered 2 .ofDelivered 3, .answered 1 .ofDelivered 4]
      ∃ t, exec EntryState.step (.fresh keptOptions) (overlapTurns ++ later) = some t ∧
        t.inFlight 1 = none ∧ t.inFlight 2 = none ∧
        lastOn 5 (executions (history EntryState.step EntryState.events (.fresh keptOptions)
          (overlapTurns ++ later))) = some (.clearPin 5) ∧
        t.store.slots 5 = ⟨"Ola", true⟩) := by
  constructor
  · have hrun : (exec EntryState.step (.fresh keptOptions) overlapTurns).map
        (fun t => (t.inFlight 1, t.inFlight 2)) =
          some (some (.setPin 5 "Ola" "56789"), some (.clearPin 5)) := by decide +kernel
    obtain ⟨t, ht, he⟩ := Option.map_eq_some_iff.mp hrun
    exact ⟨t, ht, congrArg Prod.fst he, congrArg Prod.snd he⟩
  · have hrun : (exec EntryState.step (.fresh keptOptions) (overlapTurns ++
        [.executes 2, .answered 2 .ofDelivered 3, .answered 1 .ofDelivered 4])).map
          (fun t => (t.inFlight 1, t.inFlight 2, t.store.slots 5)) =
            some (none, none, ⟨"Ola", true⟩) := by decide +kernel
    obtain ⟨t, ht, he⟩ := Option.map_eq_some_iff.mp hrun
    simp only [Prod.mk.injEq] at he
    exact ⟨t, ht, he.1, he.2.1, by decide +kernel, he.2.2⟩

end OnestiLock
