import Mathlib.Logic.Relation
import OnestiLock.SessionSteps

/-! Every turn of the event loop, taken apart into the few moves a coroutine
makes around the command lock. The invariants of a session are proved of the
moves alone. -/

namespace OnestiLock

/-- Where a coroutine stands towards the command lock. -/
inductive Hold
  | outside | reading | closing | locked | ready
  | paused (wake : Nat)
  | flying (call : Nat)
  deriving DecidableEq

def Await.hold : Await → Hold
  | acquiring => .outside
  | pausing wake => .paused wake
  | writing call _ | answering call => .flying call

def Coroutine.hold : Coroutine → Hold
  | readingRevision => .reading
  | exchanging _ _ await => await.hold
  | failingConnect _ | closing => .closing
  | subscribing _ | finished _ => .outside

def Progress.hold : Progress → Hold
  | suspended await => await.hold
  | ended _ => .outside

namespace World

def hold (w : World) (tid : TaskId) : Hold := ((w.tasks tid).map Coroutine.hold).getD .outside

theorem hold_setTask (w : World) (tid : TaskId) (task : Coroutine) :
    (w.setTask tid task).hold = Function.update w.hold tid task.hold := by
  funext t
  by_cases ht : t = tid
  · subst ht
    simp [hold, setTask]
  · simp [hold, setTask, ht]

theorem hold_congr {w w' : World} (h : w'.tasks = w.tasks) : w'.hold = w.hold := by
  funext t
  rw [hold, hold, h]

theorem hold_of_tasks {w : World} {tid : TaskId} {task : Coroutine} (h : w.tasks tid = some task) :
    w.hold tid = task.hold := by
  simp [hold, h]

theorem hold_of_isNone {w : World} {tid : TaskId} (h : (w.tasks tid).isNone = true) :
    w.hold tid = .outside := by
  simp [hold, Option.isNone_iff_eq_none.mp h]

def endReadyAt (config : SessionConfig) (w : World) (call : Nat) : Ending → Nat
  | .answered => w.now + config.commandDelay
  | .timedOut =>
    if (w.calls call).staticRef then w.now + config.lateAnswerGrace else w.session.readyAt
  | .cancelled | .raised => w.session.readyAt

end World

/-- What the invariants look at is unchanged, and a closed session stays closed. -/
structure Quiet (w w' : World) : Prop where
  holder : w'.session.commandLock.holder = w.session.commandLock.holder
  pending : w'.session.pending = w.session.pending
  readyAt : w'.session.readyAt = w.session.readyAt
  refs : w'.session.refs = w.session.refs
  firmware : w'.session.firmware = w.session.firmware
  calls : w'.calls = w.calls
  issued : w'.issued = w.issued
  now : w'.now = w.now
  new : w'.session.state = .new → w.session.state = .new
  closed : w.session.state = .closed → w'.session.state = .closed

theorem Quiet.refl (w : World) : Quiet w w := ⟨rfl, rfl, rfl, rfl, rfl, rfl, rfl, rfl, id, id⟩

theorem Quiet.setTask (w : World) (tid : TaskId) (task : Coroutine) : Quiet w (w.setTask tid task) :=
  ⟨rfl, rfl, rfl, rfl, rfl, rfl, rfl, rfl, id, id⟩

/-- One move. `reopens` says that this turn ends `connect` with success on a
session that was closed when the turn began. -/
inductive Move (config : SessionConfig) (reopens : Prop) :
    World × (TaskId → Hold) → World × (TaskId → Hold) → Prop
  | quiet {w w' : World} {h : TaskId → Hold} (hq : Quiet w w') : Move config reopens (w, h) (w', h)
  | connected {w : World} {h : TaskId → Hold} (hc : w.session.state = .closed → reopens) :
      Move config reopens (w, h) ({ w with session := { w.session with state := .connected } }, h)
  | take {w : World} {h : TaskId → Hold} {t : TaskId} {lock : FifoLock TaskId} (ht : h t = .outside)
      (hfree : w.session.commandLock.holder = none) (hlock : lock.holder = some t) :
      Move config reopens (w, h) (w.withLock lock, Function.update h t .locked)
  | pause {w : World} {h : TaskId → Hold} {t : TaskId} (ht : h t = .locked) :
      Move config reopens (w, h) (w, Function.update h t (.paused w.session.readyAt))
  | ready {w : World} {h : TaskId → Hold} {t : TaskId} (ht : h t = .locked)
      (hr : w.session.readyAt ≤ w.now) : Move config reopens (w, h) (w, Function.update h t .ready)
  | wake {w : World} {h : TaskId → Hold} {t : TaskId} {wake : Nat} (ht : h t = .paused wake)
      (hr : wake ≤ w.now) : Move config reopens (w, h) (w, Function.update h t .ready)
  | begin {w : World} {h : TaskId → Hold} {t : TaskId} {refs : CommandRefCounter}
      (commandId : CommandId) (ht : h t = .ready) (hs : w.session.state.canExchange = true)
      (hrefs : w.session.refs = some refs) :
      Move config reopens (w, h)
        ((w.issue commandId refs).setPending ⟨commandId, refs.next.1, refs.isStatic, w.issued⟩,
          Function.update h t (.flying w.issued))
  | refuse {w : World} {h : TaskId → Hold} {t : TaskId} {refs : CommandRefCounter}
      (commandId : CommandId) (ht : h t = .ready) (hs : w.session.state.canExchange = true)
      (hrefs : w.session.refs = some refs) :
      Move config reopens (w, h)
        ((w.issue commandId refs).modifyCall w.issued (fun c => c.finish .raised w.now), h)
  | written {w : World} {h : TaskId → Hold} {t : TaskId} {call : Nat} (ht : h t = .flying call) :
      Move config reopens (w, h) (w.modifyCall call (fun c => { c with written := true }), h)
  | settle {w : World} {h : TaskId → Hold} {f : Future} (call : Nat) (hf : ∀ r, f ≠ .answered r) :
      Move config reopens (w, h) (w.settle call f, h)
  | finish {w : World} {h : TaskId → Hold} {t : TaskId} {call : Nat} (ending : Ending)
      (ht : h t = .flying call) :
      Move config reopens (w, h)
        (w.endCall call ending (w.endReadyAt config call ending), Function.update h t .locked)
  | leave {w : World} {h : TaskId → Hold} {t : TaskId}
      (ht : h t = .locked ∨ h t = .ready ∨ ∃ wake, h t = .paused wake) :
      Move config reopens (w, h)
        (w.withLock w.session.commandLock.release, Function.update h t .outside)
  | startReading {w : World} {h : TaskId → Hold} {t : TaskId} (hs : w.session.state = .new)
      (ht : h t = .outside) :
      Move config reopens (w, h)
        ({ w with session := { w.session with state := .connecting } }, Function.update h t .reading)
  | gotRevision {w : World} {h : TaskId → Hold} {t : TaskId} (firmware : FirmwareVersion)
      (ht : h t = .reading) :
      Move config reopens (w, h)
        ({ w with session := { w.session with
            firmware := some firmware, refs := some (.forFirmware firmware) } },
          Function.update h t .outside)
  | stopReading {w : World} {h : TaskId → Hold} {t : TaskId} (ht : h t = .reading) :
      Move config reopens (w, h) (w, Function.update h t .outside)
  | close {w : World} {h : TaskId → Hold} {t : TaskId} (ht : h t = .outside)
      (hs : w.session.state = .closed) :
      Move config reopens (w, h) (w, Function.update h t .closing)
  | stopClosing {w : World} {h : TaskId → Hold} {t : TaskId} (ht : h t = .closing) :
      Move config reopens (w, h) (w, Function.update h t .outside)
  | tick {w : World} {h : TaskId → Hold} (ticks : Nat) :
      Move config reopens (w, h) ({ w with now := w.now + ticks }, h)

abbrev Moves (config : SessionConfig) (reopens : Prop) :=
  Relation.ReflTransGen (Move config reopens)

/-- The moves of a stretch of `_exchange` that coroutine `t` runs. -/
structure Runs (config : SessionConfig) (reopens : Prop) (w : World) (h : TaskId → Hold)
    (t : TaskId) (out : World × Progress) : Prop where
  moves : Moves config reopens (w, h) (out.1, Function.update h t out.2.hold)
  tasks : out.1.tasks = w.tasks
  state : out.1.session.state = w.session.state

section

variable {config : SessionConfig} {reopens : Prop} {w : World} {h : TaskId → Hold} {t : TaskId}

theorem Runs.after {w' : World} {x : Hold} {out : World × Progress}
    (hm : Moves config reopens (w, h) (w', Function.update h t x)) (ht : w'.tasks = w.tasks)
    (hs : w'.session.state = w.session.state)
    (hr : Runs config reopens w' (Function.update h t x) t out) : Runs config reopens w h t out := by
  refine ⟨hm.trans ?_, hr.tasks.trans ht, hr.state.trans hs⟩
  simpa only [Function.update_idem] using hr.moves

theorem leave_runs (result : Except Exn Response)
    (ht : h t = .locked ∨ h t = .ready ∨ ∃ wake, h t = .paused wake) :
    Runs config reopens w h t (w.leave result) :=
  ⟨.single (.leave ht), rfl, rfl⟩

theorem endCall_leave_runs {call : Nat} (ending : Ending) (result : Except Exn Response)
    (ht : h t = .flying call) :
    Runs config reopens w h t
      ((w.endCall call ending (w.endReadyAt config call ending)).leave result) :=
  .after (.single (.finish ending ht)) rfl rfl (leave_runs result (.inl (Function.update_self ..)))

theorem awaitAnswer_runs {call : Nat} (command : CommandPayload) (ht : h t = .flying call) :
    Runs config reopens w h t (w.awaitAnswer config command call) := by
  unfold World.awaitAnswer
  split
  · refine ⟨?_, rfl, rfl⟩
    have hsame : Function.update h t (Hold.flying call) = h := by rw [← ht, Function.update_eq_self]
    show Moves config reopens (w, h) (w, Function.update h t (.flying call))
    rw [hsame]
  · exact endCall_leave_runs .answered _ ht
  · exact endCall_leave_runs .raised _ ht
  · exact endCall_leave_runs .cancelled _ ht

theorem writeNext_runs {call : Nat} (command : CommandPayload) (frames : List Bytes)
    (ht : h t = .flying call) :
    Runs config reopens w h t (w.writeNext config command call frames) := by
  have hsame : Function.update h t (Hold.flying call) = h := by rw [← ht, Function.update_eq_self]
  cases frames with
  | nil =>
    have hw : Moves config reopens (w, h)
        (w.modifyCall call (fun c => { c with written := true }), Function.update h t (.flying call)) := by
      rw [hsame]
      exact .single (.written ht)
    exact .after hw rfl rfl (awaitAnswer_runs command (Function.update_self ..))
  | cons frame rest =>
    refine ⟨?_, rfl, rfl⟩
    show Moves config reopens (w, h) (_, Function.update h t (.flying call))
    rw [hsame]
    exact .single (.quiet ⟨rfl, rfl, rfl, rfl, rfl, rfl, rfl, rfl, id, id⟩)

theorem begin_runs (command : CommandPayload) (ht : h t = .ready)
    (hs : w.session.state.canExchange = true) :
    Runs config reopens w h t (w.begin config command) := by
  unfold World.begin
  split_ifs with hc
  · exact leave_runs _ (.inr (.inl ht))
  · cases hrefs : w.session.refs with
    | none => exact leave_runs _ (.inr (.inl ht))
    | some refs =>
      have hsame : Function.update h t Hold.ready = h := by rw [← ht, Function.update_eq_self]
      simp only
      split
      · have hm : Moves config reopens (w, h)
            ((w.issue command.commandId refs).modifyCall w.issued (fun c => c.finish .raised w.now),
              Function.update h t .ready) := by
          rw [hsame]
          exact .single (.refuse _ ht hs hrefs)
        exact .after hm rfl rfl (leave_runs _ (.inr (.inl (Function.update_self ..))))
      · exact .after (.single (.begin _ ht hs hrefs)) rfl rfl
          (writeNext_runs command _ (Function.update_self ..))

theorem afterPause_runs {wake : Nat} (command : CommandPayload) (ht : h t = .paused wake)
    (hwake : wake ≤ w.now) : Runs config reopens w h t (w.afterPause config command) := by
  unfold World.afterPause
  split_ifs with hs
  · exact leave_runs _ (.inr (.inr ⟨wake, ht⟩))
  · exact .after (.single (.wake ht hwake)) rfl rfl
      (begin_runs command (Function.update_self ..) (Bool.not_eq_false _ ▸ hs))

theorem afterAcquire_runs (command : CommandPayload) (ht : h t = .locked) :
    Runs config reopens w h t (w.afterAcquire config command) := by
  unfold World.afterAcquire
  split_ifs with hs ha hr
  · exact leave_runs _ (.inl ht)
  · exact leave_runs _ (.inl ht)
  · exact ⟨.single (.pause ht), rfl, rfl⟩
  · exact .after (.single (.ready ht (Nat.le_of_not_lt hr))) rfl rfl
      (begin_runs command (Function.update_self ..) (Bool.not_eq_false _ ▸ hs))

theorem withLock_quiet {lock : FifoLock TaskId}
    (hl : lock.holder = w.session.commandLock.holder) : Quiet w (w.withLock lock) :=
  ⟨hl, rfl, rfl, rfl, rfl, rfl, rfl, rfl, id, id⟩

theorem exchange_runs (command : CommandPayload) (ht : h t = .outside) :
    Runs config reopens w h t (w.exchange config t command) := by
  have hsame : Function.update h t Hold.outside = h := by rw [← ht, Function.update_eq_self]
  unfold World.exchange
  split
  · rename_i lock hl
    obtain ⟨hfree, hlock⟩ := FifoLock.holder_of_acquire hl
    exact .after (.single (.take ht hfree hlock)) rfl rfl (afterAcquire_runs command (Function.update_self ..))
  · rename_i lock hl
    refine ⟨?_, rfl, rfl⟩
    show Moves config reopens (w, h) (_, Function.update h t .outside)
    rw [hsame]
    exact .single (.quiet (withLock_quiet (FifoLock.holder_of_acquire_wait hl)))

theorem interruptExchange_runs (command : CommandPayload) (interrupt : Interrupt) {await : Await}
    (ht : h t = await.hold) :
    Runs config reopens w h t (w.interruptExchange config t command interrupt await) := by
  cases await with
  | acquiring =>
    refine ⟨?_, rfl, rfl⟩
    show Moves config reopens (w, h) (_, Function.update h t .outside)
    rw [show Function.update h t Hold.outside = h by
      rw [show Hold.outside = h t from ht.symm, Function.update_eq_self]]
    exact .single (.quiet (withLock_quiet FifoLock.holder_abandon))
  | pausing wake => exact leave_runs _ (.inr (.inr ⟨wake, ht⟩))
  | writing call rest =>
    cases interrupt with
    | expired => exact endCall_leave_runs .timedOut _ ht
    | cancelled => exact endCall_leave_runs .cancelled _ ht
  | answering call =>
    cases interrupt with
    | expired => exact endCall_leave_runs .timedOut _ ht
    | cancelled => exact endCall_leave_runs .cancelled _ ht

theorem resumeExchange_runs (command : CommandPayload) (reply : Reply) {await : Await}
    {out : World × Progress} (ht : h t = await.hold)
    (hout : w.resumeExchange config t command reply await = some out) :
    Runs config reopens w h t out := by
  cases await with
  | acquiring =>
    simp only [World.resumeExchange, Option.map_eq_some_iff] at hout
    obtain ⟨lock, hl, rfl⟩ := hout
    obtain ⟨hfree, hlock⟩ := FifoLock.holder_of_take hl
    exact .after (.single (.take ht hfree hlock)) rfl rfl (afterAcquire_runs command (Function.update_self ..))
  | pausing wake =>
    simp only [World.resumeExchange] at hout
    split_ifs at hout with hw
    obtain rfl := Option.some.inj hout
    exact afterPause_runs command ht hw
  | writing call rest =>
    cases reply with
    | returned raw =>
      obtain rfl := Option.some.inj hout
      exact writeNext_runs command rest ht
    | raised e =>
      obtain rfl := Option.some.inj hout
      exact endCall_leave_runs .raised _ ht
  | answering call =>
    simp only [World.resumeExchange] at hout
    split_ifs at hout with hw
    obtain rfl := Option.some.inj hout
    exact awaitAnswer_runs command ht

end

end OnestiLock
