import OnestiLock.CoordinatorMoves
import OnestiLock.Events

/-! The auto-wake of a sleeping lock and the lock event it causes (`wake` and
`wake_echo_pending` in `zha.py`, `_handle_report` in `events.py`). Each
coordinator has a transport of its own, and the stamp of a wake is there. -/

namespace OnestiLock

open Transition

/-- `WAKE_ECHO_WINDOW_S`, in the nanoseconds of the monotonic clock. -/
def wakeEchoWindow : Nat := 30 * 1000000000

/-- Where the wake of one send is. A running wake keeps what the stamp was. -/
inductive WakeStage
  | notWoken
  | running (previous : Option Nat)
  | woken
  deriving DecidableEq, Repr

structure ShownActivity where
  event : OperationEvent
  timestamp : String
  deriving DecidableEq, Repr

/-- `writes` counts the states the activity sensor has written. -/
structure ActivitySensor where
  activity : Option ShownActivity
  writes : Nat
  deriving DecidableEq, Repr

def ActivitySensor.updateActivity (s : ActivitySensor) (event : OperationEvent) (utcnow : String) :
    ActivitySensor :=
  ⟨some ⟨event, utcnow⟩, s.writes + 1⟩

/-- `lastWake` is `_last_wake` of each coordinator's transport. -/
structure EchoState where
  entry : EntryState
  strings : String → Option String
  clock : Nat
  lastWake : CoordinatorId → Option Nat
  wakes : JobId → WakeStage
  listener : Option CoordinatorId
  sensors : CoordinatorId → Option ActivitySensor

inductive EchoTurn
  | entry (turn : Turn)
  | tick (elapsed : Nat)
  | wake (tid : JobId) (entityFound : Bool)
  | wakeEnds (tid : JobId) (failed : Bool)
  | listen (cid : CoordinatorId)
  | unlisten
  | sensorAdded (cid : CoordinatorId) (restored : Option ShownActivity)
  | sensorRemoved (cid : CoordinatorId)
  | report (val : Int) (utcnow : String)

namespace EchoState

def setWake (w : EchoState) (tid : JobId) (stage : WakeStage) : EchoState :=
  { w with wakes := Function.update w.wakes tid stage }

def stamp (w : EchoState) (cid : CoordinatorId) (time : Option Nat) : EchoState :=
  { w with lastWake := Function.update w.lastWake cid time }

/-- The wake of a send is running. -/
def waking (w : EchoState) (tid : JobId) : Bool :=
  match w.wakes tid with
  | .running _ => true
  | .notWoken | .woken => false

def wakeEchoPending (w : EchoState) (cid : CoordinatorId) : Bool :=
  match w.lastWake cid with
  | some time => w.clock - time < wakeEchoWindow
  | none => false

def decode (w : EchoState) (cid : CoordinatorId) (val : Int) : Option OperationEvent :=
  decodeOperationEvent (fun slot => getSlotName w.strings (w.entry.slotsOf cid) slot) val

/-- `_handle_report` for attribute 0x0100. The capability refresh it schedules
first is a turn of the entry. -/
def handleReport (w : EchoState) (cid : CoordinatorId) (val : Int) (utcnow : String) : EchoState :=
  match w.decode cid val with
  | none => w
  | some event =>
    if event.isSystemLock (w.wakeEchoPending cid) then w
    else
      { w with
        sensors := Function.update w.sensors cid
          ((w.sensors cid).map (fun s => s.updateActivity event utcnow)) }

/-- The cancellation of a send reaches its wake, which keeps the stamp. -/
def unwindWake (w : EchoState) : Turn → EchoState
  | .unwind tid => if w.waking tid then w.setWake tid .woken else w
  | _ => w

/-- A send whose wake is running has not returned. -/
def blocks (w : EchoState) : Turn → Bool
  | .answered tid _ _ => w.waking tid
  | _ => false

def step (w : EchoState) : EchoTurn → Option EchoState
  | .entry turn =>
    if w.blocks turn then none
    else (w.entry.step turn).map (fun entry => { w.unwindWake turn with entry := entry })
  | .tick elapsed => some { w with clock := w.clock + elapsed }
  | .wake tid entityFound =>
    match w.entry.pins tid, w.wakes tid with
    | some (cid, _, .sending ..), .notWoken =>
      if entityFound then
        some ((w.stamp cid (some w.clock)).setWake tid (.running (w.lastWake cid)))
      else some (w.setWake tid .woken)
    | _, _ => none
  | .wakeEnds tid failed =>
    match w.entry.pins tid, w.wakes tid with
    | some (cid, _, .sending ..), .running previous =>
      some ((if failed then w.stamp cid previous else w).setWake tid .woken)
    | _, _ => none
  | .listen cid =>
    if (w.entry.coordinators cid).isSome then some { w with listener := some cid } else none
  | .unlisten => some { w with listener := none }
  | .sensorAdded cid restored =>
    some { w with sensors := Function.update w.sensors cid (some ⟨restored, 0⟩) }
  | .sensorRemoved cid => some { w with sensors := Function.update w.sensors cid none }
  | .report val utcnow =>
    match w.listener with
    | some cid => some (w.handleReport cid val utcnow)
    | none => none

end EchoState

inductive WakeEvent
  | actuated (tid : JobId) (cid : CoordinatorId) (time : Nat)
  | failed (tid : JobId)
  deriving DecidableEq

/-- The wake actuations of a run, and those that failed. -/
def EchoState.events (w : EchoState) : EchoTurn → List WakeEvent
  | .wake tid true =>
    match w.entry.pins tid with
    | some (cid, _, _) => [.actuated tid cid w.clock]
    | none => []
  | .wakeEnds tid true => [.failed tid]
  | _ => []

/-- An actuation of a coordinator's transport that has not failed. -/
def Actuated (past : List WakeEvent) (cid : CoordinatorId) (tid : JobId) (time : Nat) : Prop :=
  .actuated tid cid time ∈ past ∧ .failed tid ∉ past

/-- The window of some such actuation is open. -/
def OpenOn (past : List WakeEvent) (now : Nat) (cid : CoordinatorId) : Prop :=
  ∃ tid time, Actuated past cid tid time ∧ now - time < wakeEchoWindow

/-- A stamp is the latest of some times. -/
structure Latest (times : Nat → Prop) (stamp : Option Nat) : Prop where
  upper : ∀ {time}, times time → ∃ last, stamp = some last ∧ time ≤ last
  mem : ∀ {last}, stamp = some last → times last

theorem Latest.congr {p q : Nat → Prop} {stamp : Option Nat} (h : Latest p stamp)
    (hpq : ∀ time, q time ↔ p time) : Latest q stamp :=
  ⟨fun ht => h.upper ((hpq _).mp ht), fun hl => (hpq _).mpr (h.mem hl)⟩

/-- What ties the stamps of the transports to the wakes of the run. -/
structure Stamped (w : EchoState) (past : List WakeEvent) : Prop where
  held : Held w.entry
  bounded : ∀ {tid cid time}, .actuated tid cid time ∈ past → time ≤ w.clock
  fresh : ∀ {tid}, w.wakes tid = .notWoken →
    (∀ cid time, .actuated tid cid time ∉ past) ∧ .failed tid ∉ past
  last : ∀ cid, Latest (fun time => ∃ tid, Actuated past cid tid time) (w.lastWake cid)
  running : ∀ {tid previous}, w.wakes tid = .running previous →
    ∃ cid op request executed, w.entry.pins tid = some (cid, op, .sending request executed) ∧
      (∀ other time, .actuated tid other time ∈ past → other = cid) ∧
      Latest (fun time => ∃ a, a ≠ tid ∧ Actuated past cid a time) previous

namespace Stamped

variable {w t : EchoState} {past : List WakeEvent} {tid : JobId} {cid : CoordinatorId}

theorem pending (h : Stamped w past) : w.wakeEchoPending cid = true ↔ OpenOn past w.clock cid := by
  unfold EchoState.wakeEchoPending OpenOn
  have hlast := h.last cid
  cases hl : w.lastWake cid with
  | none =>
    constructor
    · intro hf
      cases hf
    · rintro ⟨tid, time, ha, -⟩
      obtain ⟨last, hsome, -⟩ := hlast.upper ⟨tid, ha⟩
      rw [hl] at hsome
      cases hsome
  | some last =>
    simp only [decide_eq_true_eq]
    constructor
    · intro hw
      obtain ⟨tid, ha⟩ := hlast.mem hl
      exact ⟨tid, last, ha, hw⟩
    · rintro ⟨tid, time, ha, hw⟩
      obtain ⟨last', hsome, hle⟩ := hlast.upper ⟨tid, ha⟩
      rw [hl] at hsome
      obtain rfl := Option.some.inj hsome
      omega

/-- What neither wakes nor fails a wake keeps the stamps. -/
theorem keep (h : Stamped w past) (hheld : Held t.entry) (hclock : w.clock ≤ t.clock)
    (hlast : t.lastWake = w.lastWake)
    (hwakes : ∀ tid, t.wakes tid = w.wakes tid ∨ t.wakes tid = .woken)
    (hpins : ∀ {tid previous cid op request executed}, t.wakes tid = .running previous →
      w.entry.pins tid = some (cid, op, .sending request executed) →
      ∃ executed', t.entry.pins tid = some (cid, op, .sending request executed')) :
    Stamped t past where
  held := hheld
  bounded hm := (h.bounded hm).trans hclock
  fresh := by
    intro tid hn
    rcases hwakes tid with hw | hw
    · exact h.fresh (hw ▸ hn)
    · rw [hw] at hn
      cases hn
  last cid := by
    rw [hlast]
    exact h.last cid
  running := by
    intro tid previous hr
    have hw : w.wakes tid = .running previous := by
      rcases hwakes tid with hw | hw
      · exact hw.symm.trans hr
      · rw [hw] at hr
        cases hr
    obtain ⟨cid, op, request, executed, hp, hon, hlatest⟩ := h.running hw
    obtain ⟨executed', hp'⟩ := hpins hr hp
    exact ⟨cid, op, request, executed', hp', hon, hlatest⟩

theorem entry {turn : Turn} {e : EntryState} (h : Stamped w past) (hb : w.blocks turn = false)
    (he : w.entry.step turn = some e) : Stamped { w.unwindWake turn with entry := e } past := by
  have hwakes : ∀ tid, (w.unwindWake turn).wakes tid = w.wakes tid ∨
      (w.unwindWake turn).wakes tid = .woken := by
    intro tid
    unfold EchoState.unwindWake
    split
    · rename_i a
      split_ifs
      · by_cases ha : tid = a
        · subst ha
          exact Or.inr (Function.update_self ..)
        · exact Or.inl (Function.update_of_ne ha ..)
      · exact Or.inl rfl
    · exact Or.inl rfl
  have hclock : (w.unwindWake turn).clock = w.clock := by
    unfold EchoState.unwindWake
    split
    · split_ifs <;> rfl
    · rfl
  have hlast : (w.unwindWake turn).lastWake = w.lastWake := by
    unfold EchoState.unwindWake
    split
    · split_ifs <;> rfl
    · rfl
  refine h.keep (Held.step h.held (EntryState.step_pinMove he)) hclock.ge hlast hwakes ?_
  intro tid previous cid op request executed hr hp
  have hw : w.wakes tid = .running previous := by
    rcases hwakes tid with hw | hw
    · exact hw.symm.trans hr
    · rw [hw] at hr
      cases hr
  have hwaking : w.waking tid = true := by simp only [EchoState.waking, hw]
  rcases sending_step he hp with hsend | ⟨outcome, background, rfl⟩ | rfl
  · exact hsend
  · exact absurd (hb.symm.trans hwaking) Bool.false_ne_true
  · simp only [EchoState.unwindWake, hwaking, if_true, EchoState.setWake,
      Function.update_self] at hr
    cases hr

theorem actuated_append {tid a : JobId} {cid c : CoordinatorId} {now time : Nat}
    (hfail : .failed tid ∉ past) :
    Actuated (past ++ [.actuated tid cid now]) c a time ↔
      Actuated past c a time ∨ (a = tid ∧ c = cid ∧ time = now) := by
  unfold Actuated
  simp only [List.mem_append, List.mem_singleton, WakeEvent.actuated.injEq, reduceCtorEq, or_false]
  constructor
  · rintro ⟨hm | ⟨rfl, rfl, rfl⟩, hf⟩
    · exact Or.inl ⟨hm, hf⟩
    · exact Or.inr ⟨rfl, rfl, rfl⟩
  · rintro (⟨hm, hf⟩ | ⟨rfl, rfl, rfl⟩)
    · exact ⟨Or.inl hm, hf⟩
    · exact ⟨Or.inr ⟨rfl, rfl, rfl⟩, hfail⟩

theorem actuated_failed {tid a : JobId} {c : CoordinatorId} {time : Nat} :
    Actuated (past ++ [.failed tid]) c a time ↔ Actuated past c a time ∧ a ≠ tid := by
  unfold Actuated
  simp only [List.mem_append, List.mem_singleton, reduceCtorEq, or_false, WakeEvent.failed.injEq,
    not_or]
  exact ⟨fun h => ⟨⟨h.1, h.2.1⟩, h.2.2⟩, fun h => ⟨h.1.1, h.1.2, h.2⟩⟩

theorem wake {op : PinOp} {request : ClusterCommand} {executed : Bool} (h : Stamped w past)
    (hp : w.entry.pins tid = some (cid, op, .sending request executed))
    (hw : w.wakes tid = .notWoken) :
    Stamped ((w.stamp cid (some w.clock)).setWake tid (.running (w.lastWake cid)))
      (past ++ [.actuated tid cid w.clock]) := by
  obtain ⟨hnone, hfail⟩ := h.fresh hw
  refine ⟨h.held, ?_, ?_, ?_, ?_⟩
  · intro a c time hm
    rcases List.mem_append.mp hm with hm | hm
    · exact h.bounded hm
    · simp only [List.mem_singleton, WakeEvent.actuated.injEq] at hm
      exact hm.2.2.le
  · intro a hn
    have ha : a ≠ tid := by
      rintro rfl
      simp [EchoState.setWake] at hn
    simp only [EchoState.setWake, EchoState.stamp, Function.update_of_ne ha] at hn
    obtain ⟨hact, hf⟩ := h.fresh hn
    simp only [List.mem_append, List.mem_singleton, WakeEvent.actuated.injEq, reduceCtorEq,
      or_false]
    refine ⟨fun c time hm => ?_, hf⟩
    rcases hm with hm | hm
    · exact hact c time hm
    · exact ha hm.1
  · intro c
    by_cases hc : c = cid
    · subst hc
      simp only [EchoState.setWake, EchoState.stamp, Function.update_self]
      constructor
      · rintro time ⟨a, ha⟩
        refine ⟨w.clock, rfl, ?_⟩
        rcases (actuated_append hfail).mp ha with ha | ⟨-, -, rfl⟩
        · exact h.bounded ha.1
        · exact le_rfl
      · intro last hl
        obtain rfl := Option.some.inj hl
        exact ⟨tid, (actuated_append hfail).mpr (Or.inr ⟨rfl, rfl, rfl⟩)⟩
    · simp only [EchoState.setWake, EchoState.stamp, Function.update_of_ne hc]
      refine (h.last c).congr (fun time => exists_congr (fun a => ?_))
      rw [actuated_append hfail]
      exact ⟨fun ha => ha.resolve_right (fun hr => hc hr.2.1), Or.inl⟩
  · intro a previous hr
    by_cases ha : a = tid
    · subst ha
      simp only [EchoState.setWake, EchoState.stamp, Function.update_self,
        WakeStage.running.injEq] at hr
      subst hr
      refine ⟨cid, op, request, executed, hp, ?_, (h.last cid).congr (fun time => ?_)⟩
      · intro other time hm
        rcases List.mem_append.mp hm with hm | hm
        · exact absurd hm (hnone other time)
        · simp only [List.mem_singleton, WakeEvent.actuated.injEq] at hm
          exact hm.2.1
      · refine exists_congr (fun b => ?_)
        rw [actuated_append hfail]
        constructor
        · rintro ⟨hb, hb' | ⟨rfl, -, -⟩⟩
          · exact hb'
          · exact absurd rfl hb
        · intro hb
          refine ⟨?_, Or.inl hb⟩
          rintro rfl
          exact hnone cid time hb.1
    · simp only [EchoState.setWake, EchoState.stamp, Function.update_of_ne ha] at hr
      obtain ⟨c, op', request', executed', hp', hon, hlatest⟩ := h.running hr
      have hc : c ≠ cid := by
        rintro rfl
        exact ha (Held.unique h.held hp' hp)
      refine ⟨c, op', request', executed', hp', ?_, hlatest.congr (fun time => ?_)⟩
      · intro other time hm
        rcases List.mem_append.mp hm with hm | hm
        · exact hon other time hm
        · simp only [List.mem_singleton, WakeEvent.actuated.injEq] at hm
          exact absurd hm.1 ha
      · refine exists_congr (fun b => and_congr_right (fun _ => ?_))
        rw [actuated_append hfail]
        exact ⟨fun hb => hb.resolve_right (fun hr => hc hr.2.1), Or.inl⟩

theorem wakeFails {op : PinOp} {request : ClusterCommand} {executed : Bool} {previous : Option Nat}
    (h : Stamped w past) (hp : w.entry.pins tid = some (cid, op, .sending request executed))
    (hw : w.wakes tid = .running previous) :
    Stamped ((w.stamp cid previous).setWake tid .woken) (past ++ [.failed tid]) := by
  obtain ⟨cid', op', request', executed', hp', hon, hlatest⟩ := h.running hw
  obtain rfl : cid = cid' := by
    rw [hp] at hp'
    exact congrArg Prod.fst (Option.some.inj hp')
  have hmem : ∀ {a c time}, .actuated a c time ∈ past ++ [WakeEvent.failed tid] →
      .actuated a c time ∈ past := by
    intro a c time hm
    simpa using hm
  refine ⟨h.held, fun hm => h.bounded (hmem hm), ?_, ?_, ?_⟩
  · intro a hn
    have ha : a ≠ tid := by
      rintro rfl
      simp [EchoState.setWake] at hn
    simp only [EchoState.setWake, EchoState.stamp, Function.update_of_ne ha] at hn
    obtain ⟨hact, hf⟩ := h.fresh hn
    refine ⟨fun c time hm => hact c time (hmem hm), ?_⟩
    simpa [ha] using hf
  · intro c
    by_cases hc : c = cid
    · subst hc
      simp only [EchoState.setWake, EchoState.stamp, Function.update_self]
      refine hlatest.congr (fun time => exists_congr (fun a => ?_))
      rw [actuated_failed]
      exact and_comm
    · simp only [EchoState.setWake, EchoState.stamp, Function.update_of_ne hc]
      refine (h.last c).congr (fun time => exists_congr (fun a => ?_))
      rw [actuated_failed]
      refine and_iff_left_of_imp (fun ha => ?_)
      rintro rfl
      exact hc (hon c time ha.1)
  · intro a previous' hr
    have ha : a ≠ tid := by
      rintro rfl
      simp [EchoState.setWake] at hr
    simp only [EchoState.setWake, EchoState.stamp, Function.update_of_ne ha] at hr
    obtain ⟨c, op'', request'', executed'', hp'', hon', hlatest'⟩ := h.running hr
    have hc : c ≠ cid := by
      rintro rfl
      exact ha (Held.unique h.held hp'' hp)
    refine ⟨c, op'', request'', executed'', hp'', fun other time hm => hon' other time (hmem hm), ?_⟩
    refine hlatest'.congr (fun time => exists_congr (fun b => and_congr_right (fun _ => ?_)))
    rw [actuated_failed]
    refine and_iff_left_of_imp (fun hb => ?_)
    rintro rfl
    exact hc (hon c time hb.1)

theorem still (h : Stamped w past) (he : t.entry = w.entry) (hclock : w.clock ≤ t.clock)
    (hlast : t.lastWake = w.lastWake) (hwakes : t.wakes = w.wakes) : Stamped t past := by
  refine h.keep (he ▸ h.held) hclock hlast (fun tid => Or.inl (by rw [hwakes])) ?_
  intro tid previous cid op request executed _ hp
  exact ⟨executed, he ▸ hp⟩

theorem setWoken (h : Stamped w past) (tid : JobId) : Stamped (w.setWake tid .woken) past := by
  refine h.keep h.held le_rfl rfl (fun a => ?_) (fun _ hp => ⟨_, hp⟩)
  by_cases ha : a = tid
  · subst ha
    exact Or.inr (Function.update_self ..)
  · exact Or.inl (Function.update_of_ne ha ..)

theorem step {turn : EchoTurn} (h : Stamped w past) (ht : w.step turn = some t) :
    Stamped t (past ++ w.events turn) := by
  cases turn with
  | entry turn =>
    simp only [EchoState.step] at ht
    split_ifs at ht with hb
    obtain ⟨e, he, rfl⟩ := Option.map_eq_some_iff.mp ht
    simpa [EchoState.events] using h.entry (by simpa using hb) he
  | tick elapsed =>
    rw [← Option.some.inj ht]
    simp only [EchoState.events, List.append_nil]
    exact h.still rfl (Nat.le_add_right ..) rfl rfl
  | wake tid entityFound =>
    simp only [EchoState.step] at ht
    split at ht
    · rename_i cid op request executed hp hw
      cases entityFound with
      | true =>
        rw [← Option.some.inj ht]
        simpa only [EchoState.events, hp] using h.wake hp hw
      | false =>
        rw [← Option.some.inj ht]
        simpa [EchoState.events] using h.setWoken tid
    · cases ht
  | wakeEnds tid failed =>
    simp only [EchoState.step] at ht
    split at ht
    · rename_i cid op request executed previous hp hw
      cases failed with
      | true =>
        rw [← Option.some.inj ht]
        exact h.wakeFails hp hw
      | false =>
        rw [← Option.some.inj ht]
        simpa [EchoState.events] using h.setWoken tid
    · cases ht
  | listen cid =>
    simp only [EchoState.step] at ht
    split_ifs at ht
    rw [← Option.some.inj ht]
    simp only [EchoState.events, List.append_nil]
    exact h.still rfl le_rfl rfl rfl
  | unlisten =>
    rw [← Option.some.inj ht]
    simp only [EchoState.events, List.append_nil]
    exact h.still rfl le_rfl rfl rfl
  | sensorAdded cid restored =>
    rw [← Option.some.inj ht]
    simp only [EchoState.events, List.append_nil]
    exact h.still rfl le_rfl rfl rfl
  | sensorRemoved cid =>
    rw [← Option.some.inj ht]
    simp only [EchoState.events, List.append_nil]
    exact h.still rfl le_rfl rfl rfl
  | report val utcnow =>
    simp only [EchoState.step] at ht
    split at ht
    · rename_i cid hl
      rw [← Option.some.inj ht]
      have hsame : (w.handleReport cid val utcnow).entry = w.entry ∧
          (w.handleReport cid val utcnow).clock = w.clock ∧
          (w.handleReport cid val utcnow).lastWake = w.lastWake ∧
          (w.handleReport cid val utcnow).wakes = w.wakes := by
        unfold EchoState.handleReport
        split
        · exact ⟨rfl, rfl, rfl, rfl⟩
        · split_ifs <;> exact ⟨rfl, rfl, rfl, rfl⟩
      simp only [EchoState.events, List.append_nil]
      exact h.still hsame.1 hsame.2.1.ge hsame.2.2.1 hsame.2.2.2
    · cases ht

end Stamped

/-- No PIN operation has begun and nothing was ever woken. -/
structure EchoState.Unwoken (w : EchoState) : Prop where
  pins : ∀ tid, w.entry.pins tid = none
  lastWake : ∀ cid, w.lastWake cid = none
  wakes : ∀ tid, w.wakes tid = .notWoken

theorem EchoState.Unwoken.stamped {w : EchoState} (h : w.Unwoken) : Stamped w [] where
  held := by
    intro tid cid op request executed hp
    rw [h.pins] at hp
    cases hp
  bounded hm := by cases hm
  fresh _ := ⟨by simp, by simp⟩
  last cid := by
    constructor
    · rintro time ⟨tid, ha, -⟩
      cases ha
    · intro last hl
      rw [h.lastWake] at hl
      cases hl
  running hr := by
    rw [h.wakes] at hr
    cases hr

theorem stamped_exec {w t : EchoState} {turns : List EchoTurn} (hw : w.Unwoken)
    (hrun : exec EchoState.step w turns = some t) :
    Stamped t (history EchoState.step EchoState.events w turns) :=
  exec_history (fun _ _ _ _ hs _ ht => hs.step ht) hw.stamped along_true hrun

/-- What a report of an anonymous Zigbee lock does to the sensor of the
coordinator that listens. -/
theorem report_zigbee {t : EchoState} {past : List WakeEvent} {cid : CoordinatorId} {val : Int}
    {utcnow : String} {event : OperationEvent} (h : Stamped t past) (hl : t.listener = some cid)
    (hval : t.decode cid val = some event) (hlock : event.anonymousLock = true)
    (hzigbee : event.source = .zigbee) :
    ∃ r, t.step (.report val utcnow) = some r ∧
      (OpenOn past t.clock cid → r.sensors = t.sensors) ∧
      (¬ OpenOn past t.clock cid → r.sensors = Function.update t.sensors cid
        ((t.sensors cid).map (fun s => s.updateActivity event utcnow))) := by
  refine ⟨t.handleReport cid val utcnow, by simp only [EchoState.step, hl], ?_, ?_⟩
  · intro ho
    have hsys : event.isSystemLock (t.wakeEchoPending cid) = true := by
      simp only [OperationEvent.isSystemLock, hzigbee, hlock, h.pending.mpr ho, Bool.and_true]
    simp only [EchoState.handleReport, hval, hsys, if_true]
  · intro ho
    have hpend : t.wakeEchoPending cid = false := by
      rw [← Bool.not_eq_true, h.pending]
      exact ho
    have hsys : event.isSystemLock (t.wakeEchoPending cid) = false := by
      simp only [OperationEvent.isSystemLock, hzigbee, hpend, Bool.and_false]
    simp only [EchoState.handleReport, hval, hsys, Bool.false_eq_true, if_false]

/-- The window of some wake of the entry is open. -/
def Open (past : List WakeEvent) (now : Nat) : Prop := ∃ cid, OpenOn past now cid

/-- An anonymous Zigbee lock is hidden in the window of every wake, and shown
outside of them all, exactly when an open window is one of the listening
coordinator's own. -/
theorem wake_echo_iff {w t : EchoState} {turns : List EchoTurn} (hw : w.Unwoken)
    (hrun : exec EchoState.step w turns = some t) {cid : CoordinatorId} {val : Int}
    (utcnow : String) {event : OperationEvent} {sensor : ActivitySensor}
    (hl : t.listener = some cid) (hsensor : t.sensors cid = some sensor)
    (hval : t.decode cid val = some event) (hlock : event.anonymousLock = true)
    (hzigbee : event.source = .zigbee) :
    let past := history EchoState.step EchoState.events w turns
    ∃ r, t.step (.report val utcnow) = some r ∧
      (((Open past t.clock → r.sensors = t.sensors) ∧
          (¬ Open past t.clock → r.sensors cid = some (sensor.updateActivity event utcnow))) ↔
        (Open past t.clock → OpenOn past t.clock cid)) := by
  intro past
  obtain ⟨r, hr, hhide, hshow⟩ :=
    report_zigbee (stamped_exec hw hrun) hl hval hlock hzigbee
  have hshown : ¬ OpenOn past t.clock cid →
      r.sensors cid = some (sensor.updateActivity event utcnow) := by
    intro ho
    rw [hshow ho, Function.update_self, hsensor]
    rfl
  refine ⟨r, hr, ?_, ?_⟩
  · rintro ⟨hopen, -⟩ hany
    by_contra hnot
    have hkept := congrFun (hopen hany) cid
    rw [hshown hnot, hsensor] at hkept
    have hwrites := congrArg ActivitySensor.writes (Option.some.inj hkept)
    simp only [ActivitySensor.updateActivity] at hwrites
    omega
  · intro hown
    exact ⟨fun hany => hhide (hown hany), fun hnone => hshown (fun ho => hnone ⟨cid, ho⟩)⟩

def EchoState.fresh (options : Options) : EchoState :=
  ⟨.fresh options, fun _ => none, 0, fun _ => none, fun _ => .notWoken, none, fun _ => none⟩

theorem EchoState.fresh_unwoken (options : Options) : (EchoState.fresh options).Unwoken :=
  ⟨fun _ => rfl, fun _ => rfl, fun _ => rfl⟩

/-- A lock from Zigbee with no user. -/
def anonymousZigbeeLock : Int := 0x00010000

/-- A write wakes the lock on the coordinator that listens. -/
def wakingTurns : List EchoTurn :=
  [.entry (.build 0), .entry (.publish 0), .sensorAdded 0 none, .listen 0,
    .entry (.call 1 0 (.setPin 5 "Ola" "56789")), .wake 1 true, .tick 2000000000]

theorem wake_echo_hidden :
    ∃ t r, exec EchoState.step (.fresh keptOptions) wakingTurns = some t ∧
      t.step (.report anonymousZigbeeLock "now") = some r ∧ r.sensors = t.sensors := by
  have hrun : (exec EchoState.step (.fresh keptOptions) wakingTurns).map (fun t =>
      (t.listener, t.sensors 0, t.decode 0 anonymousZigbeeLock, t.clock)) =
        some (some 0, some ⟨none, 0⟩, some ⟨none, none, .lock, .zigbee⟩, 2000000000) := by
    decide +kernel
  obtain ⟨t, ht, he⟩ := Option.map_eq_some_iff.mp hrun
  simp only [Prod.mk.injEq] at he
  obtain ⟨hl, hsensor, hval, hclock⟩ := he
  have hactuated : Actuated (history EchoState.step EchoState.events (.fresh keptOptions)
      wakingTurns) 0 1 0 := by
    unfold Actuated
    decide +kernel
  have hown : OpenOn (history EchoState.step EchoState.events (.fresh keptOptions) wakingTurns)
      t.clock 0 := ⟨1, 0, hactuated, by rw [hclock]; decide⟩
  obtain ⟨r, hr, hiff⟩ := wake_echo_iff (EchoState.fresh_unwoken _) ht "now"
    hl hsensor hval rfl rfl
  exact ⟨t, r, ht, hr, (hiff.mpr (fun _ => hown)).1 ⟨0, hown⟩⟩

/-- The entry is reloaded while the write that woke the lock goes on. -/
def reloadedTurns : List EchoTurn :=
  wakingTurns ++ [.unlisten, .sensorRemoved 0, .entry .unload, .entry (.build 1),
    .entry (.publish 1), .sensorAdded 1 none, .listen 1]

theorem wake_echo_shown :
    ∃ t r, exec EchoState.step (.fresh keptOptions) reloadedTurns = some t ∧
      Open (history EchoState.step EchoState.events (.fresh keptOptions) reloadedTurns) t.clock ∧
      t.listener = some 1 ∧ t.step (.report anonymousZigbeeLock "now") = some r ∧
      t.sensors 1 = some ⟨none, 0⟩ ∧
      r.sensors 1 = some ⟨some ⟨⟨none, none, .lock, .zigbee⟩, "now"⟩, 1⟩ := by
  have hrun : (exec EchoState.step (.fresh keptOptions) reloadedTurns).map (fun t =>
      (t.clock, t.listener, t.sensors 1,
        (t.step (.report anonymousZigbeeLock "now")).map (fun r => r.sensors 1))) =
        some (2000000000, some 1, some ⟨none, 0⟩,
          some (some ⟨some ⟨⟨none, none, .lock, .zigbee⟩, "now"⟩, 1⟩)) := by decide +kernel
  obtain ⟨t, ht, he⟩ := Option.map_eq_some_iff.mp hrun
  simp only [Prod.mk.injEq] at he
  obtain ⟨hclock, hl, hsensor, hreport⟩ := he
  obtain ⟨r, hr, hshown⟩ := Option.map_eq_some_iff.mp hreport
  have hactuated : Actuated (history EchoState.step EchoState.events (.fresh keptOptions)
      reloadedTurns) 0 1 0 := by
    unfold Actuated
    decide +kernel
  exact ⟨t, r, ht, ⟨0, 1, 0, hactuated, by rw [hclock]; decide⟩, hl, hr, hsensor, hshown⟩

end OnestiLock
