import OnestiLock.Fairness
import OnestiLock.SessionQueue

/-! How a closed session drains: the command in flight ends with its writes,
and then every command that waits is turned away. -/

namespace OnestiLock

open FifoLock Transition

/-- A closed session with no coroutine left in `connect`. -/
structure Draining (config : SessionConfig) (prim : Primitives) (w : World) : Prop where
  reached : ∃ ls, exec (World.step config prim) (.new config) ls = some w
  closed : w.session.state = .closed
  idle : ∀ t, (w.stage t).connects = false

section

variable {config : SessionConfig} {prim : Primitives} {w w' : World} {t : TaskId} {l : Label}

theorem reached_step (hr : ∃ ls, exec (World.step config prim) (.new config) ls = some w)
    (hs : w.step config prim l = some w') :
    ∃ ls, exec (World.step config prim) (.new config) ls = some w' := by
  obtain ⟨ls, hls⟩ := hr
  exact ⟨ls ++ [l], exec_append.mpr ⟨w, hls, exec_cons.mpr ⟨w', hs, rfl⟩⟩⟩

theorem step_now (hs : w.step config prim l = some w') : w.now ≤ w'.now := by
  refine step_preserves (I := fun v _ => w.now ≤ v.now) ?_ (fun _ _ _ hv => hv) (Nat.le_refl _) hs
  intro v v' h h' hm hv
  cases hm with
  | quiet hq => exact Nat.le_trans hv (Nat.le_of_eq hq.now.symm)
  | tick ticks => exact Nat.le_trans hv (Nat.le_add_right ..)
  | connected | take | pause | ready | wake | begin | refuse | written | settle | finish | leave
  | startReading | gotRevision | stopReading | close | stopClosing => exact hv

/-- Without a coroutine in `connect`, nothing opens a closed session. -/
theorem shift_closed {s s' : TaskId → Stage} (hm : Shift config prim (w, s) (w', s'))
    (hclosed : w.session.state = .closed) (hidle : ∀ t, (s t).connects = false) :
    w'.session.state = .closed ∧ ∀ t, (s' t).connects = false := by
  cases hm with
  | steady h =>
    refine ⟨?_, hidle⟩
    rcases h.state with hsame | hclosed'
    · exact hsame.trans hclosed
    · exact hclosed'
  | stop t =>
    refine ⟨hclosed, fun u => ?_⟩
    by_cases hu : u = t
    · rw [hu, Function.update_self]
      rfl
    · rw [Function.update_of_ne hu]
      exact hidle u
  | start hs =>
    rw [hclosed] at hs
    exact absurd hs (by decide)
  | send hs =>
    rw [hclosed] at hs
    exact absurd hs (by decide)
  | @key _ _ t _ ht hown =>
    have hfalse := hidle t
    rw [ht] at hfalse
    exact absurd hfalse (by decide)
  | @connect _ _ t ht =>
    have hfalse := hidle t
    rw [ht] at hfalse
    exact absurd hfalse (by decide)

theorem shifts_closed {s : TaskId → Stage} {b : World × (TaskId → Stage)}
    (hm : Shifts config prim (w, s) b) (hclosed : w.session.state = .closed)
    (hidle : ∀ t, (s t).connects = false) :
    b.1.session.state = .closed ∧ ∀ t, (b.2 t).connects = false := by
  induction hm with
  | refl => exact ⟨hclosed, hidle⟩
  | tail _ hstep ih => exact shift_closed hstep ih.1 ih.2

namespace Draining

theorem step (hd : Draining config prim w) (hs : w.step config prim l = some w') :
    Draining config prim w' := by
  obtain ⟨ls, hr⟩ := hd.reached
  have hsecret := Secret.reachable hr
  obtain ⟨hclosed, hidle⟩ :=
    shifts_closed (step_turn hsecret.linked hsecret.tasks hs).shifts hd.closed hd.idle
  exact ⟨reached_step ⟨ls, hr⟩ hs, hclosed, hidle⟩

theorem orderly (hd : Draining config prim w) : w.clients.Orderly := by
  obtain ⟨ls, hr⟩ := hd.reached
  exact orderly_of_reachable hr

theorem caller {caller : Caller} {command : CommandPayload} {await : Await}
    (hd : Draining config prim w) (ht : w.tasks t = some (.exchanging caller command await)) :
    caller = .send := by
  have hidle := hd.idle t
  rw [World.stage_of_tasks ht] at hidle
  cases caller with
  | send => rfl
  | connectKey firmware => simp [Coroutine.stage, Stage.connects] at hidle
  | connectModel => simp [Coroutine.stage, Stage.connects] at hidle

end Draining

/-- A command that waits for the command lock, or in its pause. -/
def World.Waits (w : World) (t : TaskId) : Prop :=
  ∃ command await, w.tasks t = some (.exchanging .send command await) ∧ await.call? = none

/-- How a command ends that a closed session turns away. -/
def turnedAway (interrupt : Option Interrupt) : Exn :=
  match interrupt with
  | none => .ble (.disconnected "The session is closed")
  | some _ => .cancelled

theorem afterAcquire_closed (command : CommandPayload) (hclosed : w.session.state = .closed) :
    w.afterAcquire config command = w.leave (.error (turnedAway none)) := by
  simp [World.afterAcquire, hclosed, SessionState.canExchange, SessionState.notConnected, turnedAway]

theorem afterPause_closed (command : CommandPayload) (hclosed : w.session.state = .closed) :
    w.afterPause config command = w.leave (.error (turnedAway none)) := by
  simp [World.afterPause, hclosed, SessionState.canExchange, SessionState.notConnected, turnedAway]

theorem resumeExchange_waits {command : CommandPayload} {await : Await} {reply : Reply}
    {out : World × Progress} (hclosed : w.session.state = .closed) (hcall : await.call? = none)
    (hout : w.resumeExchange config t command reply await = some out) :
    out.2 = .ended (.error (turnedAway none)) ∧ out.1.writes = w.writes := by
  cases await with
  | acquiring =>
    simp only [World.resumeExchange, Option.map_eq_some_iff] at hout
    obtain ⟨lock, -, rfl⟩ := hout
    have hclosed' : (w.withLock lock).session.state = .closed := hclosed
    rw [afterAcquire_closed command hclosed']
    exact ⟨rfl, rfl⟩
  | pausing wake =>
    simp only [World.resumeExchange] at hout
    split_ifs at hout
    obtain rfl := Option.some.inj hout
    rw [afterPause_closed command hclosed]
    exact ⟨rfl, rfl⟩
  | writing call rest => simp [Await.call?] at hcall
  | answering call => simp [Await.call?] at hcall

theorem interruptExchange_waits {command : CommandPayload} {await : Await} (interrupt : Interrupt)
    (hcall : await.call? = none) :
    (w.interruptExchange config t command interrupt await).2 = .ended (.error .cancelled) ∧
      (w.interruptExchange config t command interrupt await).1.writes = w.writes := by
  cases await with
  | acquiring => exact ⟨rfl, rfl⟩
  | pausing wake => exact ⟨rfl, rfl⟩
  | writing call rest => simp [Await.call?] at hcall
  | answering call => simp [Await.call?] at hcall

theorem sendProgress_ended (command : CommandPayload) {out : World × Progress} {e : Exn}
    (h : out.2 = .ended (.error e)) :
    (World.sendProgress t command out).tasks t = some (.finished (.error e)) ∧
      (World.sendProgress t command out).writes = out.1.writes := by
  obtain ⟨v, progress⟩ := out
  obtain rfl : progress = .ended (.error e) := h
  refine ⟨?_, rfl⟩
  simp [World.sendProgress, World.finish, World.setTask, Except.map]

/-- The one turn of a waiting command in a closed session. -/
theorem resume_waits {reply : Reply} (hclosed : w.session.state = .closed) (ht : w.Waits t)
    (hs : w.step config prim (.resume t reply) = some w') :
    w'.tasks t = some (.finished (.error (turnedAway (w.interrupts t)))) ∧ w'.writes = w.writes := by
  obtain ⟨command, await, htask, hcall⟩ := ht
  let v := w.consumeInterrupt t
  simp only [World.step, World.resume, htask, Option.bind_some] at hs
  cases hi : w.interrupts t with
  | some i =>
    simp only [World.resumeTask, hi, Option.some.injEq] at hs
    subst hs
    have hout : (v.interruptExchange config t command i await).2 = .ended (.error .cancelled) ∧
        (v.interruptExchange config t command i await).1.writes = v.writes :=
      interruptExchange_waits i hcall
    obtain ⟨htasks, hwrites⟩ := sendProgress_ended (t := t) command hout.1
    exact ⟨htasks, hwrites.trans hout.2⟩
  | none =>
    simp only [World.resumeTask, hi, Option.map_eq_some_iff] at hs
    obtain ⟨out, hout, rfl⟩ := hs
    have hclosed' : v.session.state = .closed := hclosed
    obtain ⟨hended, hwrites⟩ := resumeExchange_waits hclosed' hcall hout
    obtain ⟨htasks, hwrites'⟩ := sendProgress_ended (t := t) command hended
    exact ⟨htasks, hwrites'.trans hwrites⟩

/-! Every turn of a command brings the session nearer to its end. -/

def Coroutine.turns : Coroutine → Nat
  | exchanging _ _ await => await.turns + 1
  | readingRevision | subscribing _ | failingConnect _ | closing | finished _ => 0

/-- Turns that the commands of a draining session can still take: one of each
that waits, and those of the one that holds the command lock. -/
def World.left (w : World) : Nat :=
  w.session.commandLock.waiters.length + ((w.session.commandLock.holder.bind w.tasks).map Coroutine.turns).getD 0

/-- Whose turn is next: the holder of the command lock, or its first waiter. -/
def World.helper (w : World) : TaskId :=
  (w.session.commandLock.holder.or (w.session.commandLock.waiters.map Prod.fst).head?).getD 0

theorem exchanging_of_seat (ht : w.seat t ≠ .away) :
    ∃ caller command await, w.tasks t = some (.exchanging caller command await) ∧ w.seat t = await.seat := by
  cases htask : w.tasks t with
  | none => simp [World.seat, htask] at ht
  | some task =>
    have hseat := World.seat_of_tasks htask
    cases task with
    | exchanging caller command await => exact ⟨caller, command, await, rfl, hseat⟩
    | readingRevision | subscribing | failingConnect | closing | finished =>
      exact absurd hseat ht

theorem seat_of_call {await : Await} {call : Nat} (h : await.call? = some call) : await.seat = .inside := by
  cases await with
  | acquiring => simp [Await.call?] at h
  | pausing | writing | answering => rfl

theorem seat_same {u : TaskId} (htasks : w'.tasks u = w.tasks u) : w'.seat u = w.seat u := by
  rw [World.seat, World.seat, htasks]

theorem waiters_le (hc : w.clients.Orderly) (hc' : w'.clients.Orderly)
    (hother : ∀ u, u ≠ t → w'.tasks u = w.tasks u) (ht : w'.seat t ≠ .queued) :
    w'.session.commandLock.waiters.length ≤ w.session.commandLock.waiters.length := by
  refine hc.length_le hc' fun u hu => ?_
  by_cases he : u = t
  · rw [he] at hu
    exact absurd hu ht
  · exact (seat_same (hother u he)).symm.trans hu

theorem left_lt_of_queued (hc : w.clients.Orderly) (hc' : w'.clients.Orderly)
    (hother : ∀ u, u ≠ t → w'.tasks u = w.tasks u) (ht : w.seat t = .queued) (ht' : w'.seat t = .away) :
    w'.left < w.left := by
  have hshorter : w'.session.commandLock.waiters.length < w.session.commandLock.waiters.length := by
    refine hc.length_lt hc' (fun u hu => ?_) ht (by simp [World.clients, ht'])
    have hu' : w'.seat u = .queued := hu
    have he : u ≠ t := by
      rintro rfl
      rw [ht'] at hu'
      simp at hu'
    exact (seat_same (hother u he)).symm.trans hu'
  have hholder : w'.session.commandLock.holder = w.session.commandLock.holder := by
    refine hc.holder_eq hc' fun u => ?_
    by_cases he : u = t
    · simp [World.clients, he, ht, ht']
    · simp [World.clients, seat_same (hother u he)]
  have htask : w'.session.commandLock.holder.bind w'.tasks = w.session.commandLock.holder.bind w.tasks := by
    rw [hholder]
    cases hh : w.session.commandLock.holder with
    | none => rfl
    | some u =>
      refine hother u ?_
      rintro rfl
      have hinside : w.seat u = .inside := (hc.inside u).mpr hh
      rw [ht] at hinside
      simp at hinside
  simp only [World.left, htask]
  omega

theorem left_lt_of_inside (hc : w.clients.Orderly) (hc' : w'.clients.Orderly)
    (hother : ∀ u, u ≠ t → w'.tasks u = w.tasks u) (ht : w.seat t = .inside) (ht' : w'.seat t = .away) :
    w'.left < w.left := by
  have hle := waiters_le hc hc' hother (by simp [ht'])
  have hholder : w.session.commandLock.holder = some t := (hc.inside t).mp ht
  have hnone : w'.session.commandLock.holder = none := by
    refine hc'.holder_none fun u hu => ?_
    have hu' : w'.seat u = .inside := hu
    have he : u ≠ t := by
      rintro rfl
      rw [ht'] at hu'
      simp at hu'
    exact he (hc.holder_unique ht ((seat_same (hother u he)).symm.trans hu'))
  obtain ⟨caller, command, await, htask, -⟩ := exchanging_of_seat (w := w) (t := t) (by simp [ht])
  simp only [World.left, hnone, hholder, Option.bind_some, htask, Option.bind_none, Option.map_none,
    Option.getD_none, Option.map_some, Option.getD_some, Coroutine.turns]
  omega

theorem interrupt_lock (i : Interrupt) :
    (w.interrupt t i).session.commandLock.holder = w.session.commandLock.holder ∧
      (w.interrupt t i).session.commandLock.waiters.map Prod.fst =
        w.session.commandLock.waiters.map Prod.fst := by
  unfold World.interrupt
  simp only
  split
  · refine ⟨holder_cancelWait, ?_⟩
    show (w.session.commandLock.cancelWait t).waiters.map Prod.fst = _
    unfold FifoLock.cancelWait
    split_ifs
    · rfl
    · exact Clients.Orderly.waiters_flag
  · exact ⟨rfl, rfl⟩
  · exact ⟨rfl, rfl⟩

namespace Draining

theorem done {command : CommandPayload} {await : Await} {call : Nat} {caller : Caller}
    (hd : Draining config prim w) (ht : w.tasks t = some (.exchanging caller command await))
    (hcall : await.call? = some call) : (w.calls call).future.isWaiting = false := by
  obtain ⟨ls, hr⟩ := hd.reached
  have hissued := ((Secret.reachable hr).tasks t caller command await ht).1.call_issued hcall
  exact done_of_closed hr hd.closed hissued

theorem resume {reply : Reply} (hd : Draining config prim w) (ht : w.seat t ≠ .away)
    (hs : w.step config prim (.resume t reply) = some w') :
    (∃ result, w'.tasks t = some (.finished result)) ∨
      ∃ command await await' call, w.tasks t = some (.exchanging .send command await) ∧
        w'.tasks t = some (.exchanging .send command await') ∧ await.seat = .inside ∧
        await'.call? = some call ∧ await'.turns < await.turns := by
  obtain ⟨caller, command, await, htask, -⟩ := exchanging_of_seat ht
  obtain rfl := hd.caller htask
  obtain ⟨ls, hr⟩ := hd.reached
  cases hcall : await.call? with
  | none =>
    obtain ⟨hfinished, -⟩ := resume_waits hd.closed ⟨command, await, htask, hcall⟩ hs
    exact .inl ⟨_, hfinished⟩
  | some call =>
    have hturn : ∃ v, w.step config prim (.resume t reply) = some v ∧ _ :=
      resume_done (Secret.reachable hr).tasks htask hcall (hd.done htask hcall) reply
    obtain ⟨v, hv, hnext⟩ := hturn
    obtain rfl := Option.some.inj (hs.symm.trans hv)
    rcases hnext with ⟨-, hfinished⟩ | ⟨await', htask', hcall', hturns⟩
    · exact .inl (hfinished rfl)
    · exact .inr ⟨command, await, await', call, htask, htask', seat_of_call hcall, hcall', hturns⟩

theorem left_lt {reply : Reply} (hd : Draining config prim w) (ht : w.seat t ≠ .away)
    (hs : w.step config prim (.resume t reply) = some w') : w'.left < w.left := by
  have hseats : Seats t w w' := resume_seats hs
  have hc := hd.orderly
  have hc' := (hd.step hs).orderly
  rcases hd.resume ht hs with ⟨result, hfinished⟩ |
    ⟨command, await, await', call, htask, htask', hinside, hcall', hturns⟩
  · have haway : w'.seat t = .away := World.seat_of_tasks hfinished
    cases hseat : w.seat t with
    | away => exact absurd hseat ht
    | queued => exact left_lt_of_queued hc hc' hseats.tasks hseat haway
    | inside => exact left_lt_of_inside hc hc' hseats.tasks hseat haway
  · have hseat : w.seat t = .inside := (World.seat_of_tasks htask).trans hinside
    have hseat' : w'.seat t = .inside := (World.seat_of_tasks htask').trans (seat_of_call hcall')
    have hle := waiters_le hc hc' hseats.tasks (by simp [hseat'])
    have hholder : w.session.commandLock.holder = some t := (hc.inside t).mp hseat
    have hholder' : w'.session.commandLock.holder = some t := (hc'.inside t).mp hseat'
    simp only [World.left, hholder, hholder', Option.bind_some, htask, htask', Option.map_some,
      Option.getD_some, Coroutine.turns]
    omega

theorem lock_same (hd : Draining config prim w) (hl : ∀ u reply, l = .resume u reply → w.seat u = .away)
    (hs : w.step config prim l = some w') :
    w'.session.commandLock.holder = w.session.commandLock.holder ∧
      w'.session.commandLock.waiters.map Prod.fst = w.session.commandLock.waiters.map Prod.fst := by
  have hclosed := hd.closed
  cases l with
  | connect tid =>
    simp only [World.step] at hs
    split_ifs at hs
    obtain rfl := Option.some.inj hs
    simp [World.startConnect, hclosed, World.finish, World.setTask]
  | send tid command skipAppGates =>
    simp only [World.step] at hs
    split_ifs at hs
    obtain rfl := Option.some.inj hs
    simp [World.startSend, hclosed, World.finish, World.setTask]
  | close tid =>
    simp only [World.step] at hs
    split_ifs at hs
    obtain rfl := Option.some.inj hs
    have hlock := (failPending_same { w with session := { w.session with state := .closed } }
      "The session was closed before the lock answered").2
    have hsame : (w.startClose tid).session.commandLock = w.session.commandLock := hlock
    rw [hsame]
    exact ⟨rfl, rfl⟩
  | resume u reply =>
    have haway := hl u reply rfl
    have hidle := hd.idle u
    simp only [World.step, World.resume, Option.bind_eq_some_iff] at hs
    obtain ⟨task, htask, hs⟩ := hs
    rw [World.seat_of_tasks htask] at haway
    rw [World.stage_of_tasks htask] at hidle
    cases task with
    | readingRevision => exact absurd hidle (by simp [Coroutine.stage, Stage.connects])
    | subscribing firmware => exact absurd hidle (by simp [Coroutine.stage, Stage.connects])
    | exchanging caller command await => cases await <;> simp [Coroutine.seat, Await.seat] at haway
    | failingConnect e =>
      simp only [World.resumeTask] at hs
      split at hs <;> obtain rfl := Option.some.inj hs <;> exact ⟨rfl, rfl⟩
    | closing =>
      simp only [World.resumeTask] at hs
      split at hs <;> obtain rfl := Option.some.inj hs <;> exact ⟨rfl, rfl⟩
    | finished result => simp [World.resumeTask] at hs
  | cancel tid =>
    simp only [World.step] at hs
    split_ifs at hs
    obtain rfl := Option.some.inj hs
    exact interrupt_lock .cancelled
  | expire tid =>
    simp only [World.step, Option.bind_eq_some_iff] at hs
    obtain ⟨call, -, hs⟩ := hs
    split_ifs at hs
    obtain rfl := Option.some.inj hs
    exact interrupt_lock .expired
  | notify data origin =>
    obtain rfl := Option.some.inj hs
    rw [(onNotification_same data origin).2]
    exact ⟨rfl, rfl⟩
  | disconnect =>
    obtain rfl := Option.some.inj hs
    rw [onDisconnect_same.2.2]
    exact ⟨rfl, rfl⟩
  | tick ticks =>
    obtain rfl := Option.some.inj hs
    exact ⟨rfl, rfl⟩

theorem tasks_same {u : TaskId} (hl : ∀ u reply, l = .resume u reply → w.seat u = .away)
    (hs : w.step config prim l = some w') (hu : w.seat u ≠ .away) : w'.tasks u = w.tasks u := by
  refine (step_clients hs).2.tasks u ?_ ?_
  · rintro reply rfl
    exact hu (hl u reply rfl)
  · intro hnone
    exact hu (by simp [World.seat, hnone])

theorem left_same (hd : Draining config prim w) (hl : ∀ u reply, l = .resume u reply → w.seat u = .away)
    (hs : w.step config prim l = some w') : w'.left = w.left ∧ w'.helper = w.helper := by
  obtain ⟨hholder, hwaiters⟩ := hd.lock_same hl hs
  have hlength : w'.session.commandLock.waiters.length = w.session.commandLock.waiters.length := by
    have h := congrArg List.length hwaiters
    rwa [List.length_map, List.length_map] at h
  have htask : w'.session.commandLock.holder.bind w'.tasks = w.session.commandLock.holder.bind w.tasks := by
    rw [hholder]
    cases hh : w.session.commandLock.holder with
    | none => rfl
    | some u =>
      have hinside : w.seat u = .inside := (hd.orderly.inside u).mpr hh
      exact tasks_same hl hs (by simp [hinside])
  constructor
  · simp only [World.left, htask, hlength]
  · simp only [World.helper, hholder, hwaiters]

theorem paused {u : TaskId} {wake : Nat} (hd : Draining config prim w) (hs : w.step config prim l = some w')
    (hu : w'.hold u = .paused wake) : w.hold u = .paused wake := by
  have hc := hd.orderly
  have hc' := (hd.step hs).orderly
  have hinside : w'.seat u = .inside := by
    cases htask : w'.tasks u with
    | none => simp [World.hold, htask] at hu
    | some task =>
      rw [World.hold_of_tasks htask] at hu
      rw [World.seat_of_tasks htask]
      cases task with
      | exchanging caller command await =>
        cases await with
        | acquiring => simp [Coroutine.hold, Await.hold] at hu
        | pausing | writing | answering => rfl
      | readingRevision | subscribing | failingConnect | closing | finished => simp [Coroutine.hold] at hu
  have hkept : w.seat u ≠ .away → (∀ reply, l ≠ .resume u reply) → w.hold u = .paused wake := by
    intro haway hl
    have hsame := (step_clients hs).2.tasks u hl (by
      intro hnone
      exact haway (by simp [World.seat, hnone]))
    rwa [World.hold, hsame] at hu
  by_cases hl : ∀ t reply, l = .resume t reply → w.seat t = .away
  · have hholder : w.session.commandLock.holder = some u := by
      rw [← (hd.lock_same hl hs).1]
      exact (hc'.inside u).mp hinside
    have hinside' : w.seat u = .inside := (hc.inside u).mpr hholder
    have haway : w.seat u ≠ .away := by simp [hinside']
    refine hkept haway ?_
    rintro reply rfl
    exact haway (hl u reply rfl)
  · push Not at hl
    obtain ⟨t, reply, rfl, ht⟩ := hl
    have hseats : Seats t w w' := resume_seats hs
    by_cases hut : u = t
    · subst hut
      rcases hd.resume ht hs with ⟨result, hfinished⟩ | ⟨_, _, await', call, _, htask', _, hcall', _⟩
      · rw [World.hold_of_tasks hfinished] at hu
        simp [Coroutine.hold] at hu
      · rw [World.hold_of_tasks htask'] at hu
        cases await' <;> simp [Await.call?, Coroutine.hold, Await.hold] at hu hcall'
    · have hsame := hseats.tasks u hut
      rwa [World.hold, hsame] at hu

end Draining

end

end OnestiLock
