import OnestiLock.LockClients
import OnestiLock.SessionSettled

/-! The coroutines of a session as clients of its command lock. -/

namespace OnestiLock

open FifoLock Transition

def Await.seat : Await → Seat
  | acquiring => .queued
  | pausing _ | writing _ _ | answering _ => .inside

def Coroutine.seat : Coroutine → Seat
  | exchanging _ _ await => await.seat
  | readingRevision | subscribing _ | failingConnect _ | closing | finished _ => .away

def Progress.seat : Progress → Seat
  | suspended await => await.seat
  | ended _ => .away

namespace World

def seat (w : World) (t : TaskId) : Seat := ((w.tasks t).map Coroutine.seat).getD .away

def clients (w : World) : Clients TaskId :=
  ⟨w.session.commandLock, w.seat, fun t => (w.interrupts t).isSome⟩

theorem seat_setTask (w : World) (t : TaskId) (task : Coroutine) :
    (w.setTask t task).seat = Function.update w.seat t task.seat := by
  funext u
  by_cases hu : u = t
  · subst hu
    simp [seat, setTask]
  · simp [seat, setTask, hu]

theorem seat_congr {w w' : World} (h : w'.tasks = w.tasks) : w'.seat = w.seat := by
  funext u
  rw [seat, seat, h]

theorem seat_of_tasks {w : World} {t : TaskId} {task : Coroutine} (h : w.tasks t = some task) :
    w.seat t = task.seat := by
  simp [seat, h]

theorem seat_of_isNone {w : World} {t : TaskId} (h : (w.tasks t).isNone = true) : w.seat t = .away := by
  simp [seat, Option.isNone_iff_eq_none.mp h]

end World

abbrev ClientMoves := Relation.ReflTransGen (Clients.Move (α := TaskId))

/-- A turn of coroutine `t` that began in `w` has come to `v`, where `t` stands at `x`. -/
structure Seated (w : World) (t : TaskId) (x : Seat) (v : World) : Prop where
  moves : ClientMoves w.clients
    ⟨v.session.commandLock, Function.update w.seat t x, fun u => (v.interrupts u).isSome⟩
  tasks : v.tasks = w.tasks
  interrupts : ∀ u, u ≠ t → v.interrupts u = w.interrupts u

/-- A turn of coroutine `t`, towards the command lock and the other coroutines. -/
structure Seats (t : TaskId) (w w' : World) : Prop where
  moves : ClientMoves w.clients w'.clients
  tasks : ∀ u, u ≠ t → w'.tasks u = w.tasks u
  interrupts : ∀ u, u ≠ t → w'.interrupts u = w.interrupts u

/-- What a coroutine inside the command lock does: it stays inside, or releases it. -/
structure Keeps (w : World) (out : World × Progress) : Prop where
  tasks : out.1.tasks = w.tasks
  interrupts : out.1.interrupts = w.interrupts
  lock : (∃ await, out.2 = .suspended await ∧ await.seat = .inside ∧
      out.1.session.commandLock = w.session.commandLock) ∨
    ∃ result, out.2 = .ended result ∧ out.1.session.commandLock = w.session.commandLock.release

section

variable {config : SessionConfig} {prim : Primitives} {w w' v : World} {t : TaskId} {x : Seat}

theorem Keeps.after {out : World × Progress} (h : Keeps w' out) (htasks : w'.tasks = w.tasks)
    (hinterrupts : w'.interrupts = w.interrupts)
    (hlock : w'.session.commandLock = w.session.commandLock) : Keeps w out := by
  refine ⟨h.tasks.trans htasks, h.interrupts.trans hinterrupts, ?_⟩
  rw [← hlock]
  exact h.lock

theorem leave_keeps (result : Except Exn Response) : Keeps w (w.leave result) :=
  ⟨rfl, rfl, .inr ⟨result, rfl, rfl⟩⟩

theorem suspended_keeps {await : Await} (h : await.seat = .inside) : Keeps w (w, .suspended await) :=
  ⟨rfl, rfl, .inl ⟨await, rfl, h, rfl⟩⟩

theorem endCall_leave_keeps (call : Nat) (ending : Ending) (readyAt : Nat) (result : Except Exn Response) :
    Keeps w ((w.endCall call ending readyAt).leave result) :=
  (leave_keeps result).after rfl rfl rfl

theorem awaitAnswer_keeps (command : CommandPayload) (call : Nat) :
    Keeps w (w.awaitAnswer config command call) := by
  unfold World.awaitAnswer
  split
  · exact suspended_keeps rfl
  · exact endCall_leave_keeps _ _ _ _
  · exact endCall_leave_keeps _ _ _ _
  · exact endCall_leave_keeps _ _ _ _

theorem writeNext_keeps (command : CommandPayload) (call : Nat) (frames : List Bytes) :
    Keeps w (w.writeNext config command call frames) := by
  cases frames with
  | nil => exact (awaitAnswer_keeps command call).after rfl rfl rfl
  | cons frame rest => exact ⟨rfl, rfl, .inl ⟨.writing call rest, rfl, rfl, rfl⟩⟩

theorem begin_keeps (command : CommandPayload) : Keeps w (w.begin config command) := by
  unfold World.begin
  split_ifs
  · exact leave_keeps _
  · split
    · exact leave_keeps _
    · simp only
      split
      · exact (leave_keeps _).after rfl rfl rfl
      · exact (writeNext_keeps command _ _).after rfl rfl rfl

theorem afterPause_keeps (command : CommandPayload) : Keeps w (w.afterPause config command) := by
  unfold World.afterPause
  split_ifs
  · exact leave_keeps _
  · exact begin_keeps command

theorem afterAcquire_keeps (command : CommandPayload) : Keeps w (w.afterAcquire config command) := by
  unfold World.afterAcquire
  split_ifs
  · exact leave_keeps _
  · exact leave_keeps _
  · exact suspended_keeps rfl
  · exact begin_keeps command

theorem interruptExchange_keeps {await : Await} (command : CommandPayload) (interrupt : Interrupt)
    (h : await.seat = .inside) : Keeps w (w.interruptExchange config t command interrupt await) := by
  cases await with
  | acquiring => simp [Await.seat] at h
  | pausing wake => exact leave_keeps _
  | writing call rest => cases interrupt <;> exact endCall_leave_keeps _ _ _ _
  | answering call => cases interrupt <;> exact endCall_leave_keeps _ _ _ _

theorem resumeExchange_keeps {await : Await} {command : CommandPayload} {reply : Reply}
    {out : World × Progress} (h : await.seat = .inside)
    (hout : w.resumeExchange config t command reply await = some out) : Keeps w out := by
  cases await with
  | acquiring => simp [Await.seat] at h
  | pausing wake =>
    simp only [World.resumeExchange] at hout
    split_ifs at hout
    obtain rfl := Option.some.inj hout
    exact afterPause_keeps command
  | writing call rest =>
    cases reply with
    | returned raw =>
      obtain rfl := Option.some.inj hout
      exact writeNext_keeps command call rest
    | raised e =>
      obtain rfl := Option.some.inj hout
      exact endCall_leave_keeps _ _ _ _
  | answering call =>
    simp only [World.resumeExchange] at hout
    split_ifs at hout
    obtain rfl := Option.some.inj hout
    exact awaitAnswer_keeps command call

/-! A turn, from the place the coroutine has to the place it takes. -/

theorem Seated.start (ht : w.seat t = x) : Seated w t x w := by
  refine ⟨?_, rfl, fun _ _ => rfl⟩
  rw [← ht, Function.update_eq_self]
  exact .refl

theorem Seated.consume (ht : w.seat t = x) (hx : x ≠ .queued) : Seated w t x (w.consumeInterrupt t) := by
  refine ⟨?_, rfl, fun u hu => Function.update_of_ne hu ..⟩
  have hthrown : (fun u => ((w.consumeInterrupt t).interrupts u).isSome) =
      Function.update w.clients.thrown t false := by
    funext u
    by_cases hu : u = t
    · simp [World.consumeInterrupt, hu]
    · simp [World.consumeInterrupt, World.clients, hu]
  rw [hthrown, ← ht, Function.update_eq_self]
  exact .single (.throw (a := t) (by rw [← ht] at hx; exact hx) false)

theorem Seated.congr (h : Seated w t x v) (htasks : w'.tasks = v.tasks)
    (hinterrupts : w'.interrupts = v.interrupts)
    (hlock : w'.session.commandLock = v.session.commandLock) : Seated w t x w' := by
  refine ⟨?_, htasks.trans h.tasks, fun u hu => (congrFun hinterrupts u).trans (h.interrupts u hu)⟩
  rw [hlock, hinterrupts]
  exact h.moves

theorem Seated.keeps {out : World × Progress} (h : Seated w t .inside v) (hk : Keeps v out) :
    Seated w t out.2.seat out.1 := by
  refine ⟨?_, hk.tasks.trans h.tasks, fun u hu => (congrFun hk.interrupts u).trans (h.interrupts u hu)⟩
  rw [hk.interrupts]
  rcases hk.lock with ⟨await, hout, hseat, hlock⟩ | ⟨result, hout, hlock⟩
  · rw [hout, hlock]
    show ClientMoves w.clients ⟨_, Function.update w.seat t await.seat, _⟩
    rw [hseat]
    exact h.moves
  · have hleave := h.moves.tail (.leave (a := t) (Function.update_self ..))
    rw [Function.update_idem] at hleave
    rw [hout, hlock]
    exact hleave

theorem Seated.exchange (h : Seated w t .away v) (command : CommandPayload) :
    Seated w t (v.exchange config t command).2.seat (v.exchange config t command).1 := by
  unfold World.exchange
  split
  · rename_i lock hacquire
    have henter := h.moves.tail (.enter (a := t) (Function.update_self ..) hacquire)
    rw [Function.update_idem] at henter
    have hinside : Seated w t .inside (v.withLock lock) := ⟨henter, h.tasks, h.interrupts⟩
    exact hinside.keeps (afterAcquire_keeps command)
  · rename_i lock hacquire
    have hwait := h.moves.tail (.wait (a := t) (Function.update_self ..) hacquire)
    rw [Function.update_idem] at hwait
    exact ⟨hwait, h.tasks, h.interrupts⟩

theorem Seated.setTask (task : Coroutine) (h : Seated w t task.seat v) : Seats t w (v.setTask t task) := by
  constructor
  · have hclients : (v.setTask t task).clients =
        ⟨v.session.commandLock, Function.update w.seat t task.seat, fun u => (v.interrupts u).isSome⟩ := by
      rw [World.clients, World.seat_setTask, World.seat_congr h.tasks]
      rfl
    rw [hclients]
    exact h.moves
  · intro u hu
    simp only [World.setTask, Function.update_of_ne hu, h.tasks]
  · exact h.interrupts

theorem Seated.finish (h : Seated w t .away v) (result : Except Exn (Option Response)) :
    Seats t w (v.finish t result) :=
  Seated.setTask (.finished result) h

theorem failPending_same (w : World) (message : String) :
    (w.failPending message).interrupts = w.interrupts ∧
      (w.failPending message).session.commandLock = w.session.commandLock := by
  unfold World.failPending
  split <;> exact ⟨rfl, rfl⟩

theorem Seated.closeSession (h : Seated w t x v) : Seated w t x v.closeSession := by
  obtain ⟨hinterrupts, hlock⟩ := failPending_same
    { v with session := { v.session with state := .closed } }
    "The session was closed before the lock answered"
  exact h.congr (failPending_tasks _) hinterrupts hlock

theorem Seated.failConnect (h : Seated w t .away v) (e : Exn) : Seats t w (v.failConnect t e) :=
  Seated.setTask (.failingConnect e) h.closeSession

theorem Seated.finishConnect (h : Seated w t .away v) : Seats t w (v.finishConnect t) := by
  let connected : World := { v with session := { v.session with state := .connected } }
  have hconnected : Seated w t .away connected := h.congr rfl rfl rfl
  exact hconnected.finish _

theorem Seated.sendProgress {command : CommandPayload} {out : World × Progress}
    (h : Seated w t out.2.seat out.1) : Seats t w (World.sendProgress t command out) := by
  obtain ⟨v, await | result⟩ := out
  · exact Seated.setTask (.exchanging .send command await) h
  · exact Seated.finish h _

theorem Seated.modelProgress {out : World × Progress} (h : Seated w t out.2.seat out.1) :
    Seats t w (World.modelProgress t out) := by
  obtain ⟨v, await | result⟩ := out
  · exact Seated.setTask (.exchanging .connectModel deviceModelGet await) h
  · have haway : Seated w t .away v := h
    simp only [World.modelProgress]
    split
    · exact haway.failConnect _
    · rename_i model hmodel
      let modelled : World := { v with session := { v.session with model := some model } }
      have hmodelled : Seated w t .away modelled := haway.congr rfl rfl rfl
      exact hmodelled.finishConnect

theorem Seated.keyProgress {firmware : FirmwareVersion} {command : CommandPayload}
    {out : World × Progress} (h : Seated w t out.2.seat out.1) :
    Seats t w (World.keyProgress config prim t firmware command out) := by
  obtain ⟨v, await | result⟩ := out
  · exact Seated.setTask (.exchanging (.connectKey firmware) command await) h
  · have haway : Seated w t .away v := h
    simp only [World.keyProgress]
    split
    · exact haway.failConnect _
    · rename_i keys hkeys
      have hkeyed : Seated w t .away (v.setLinkKeys prim keys) := haway.congr rfl rfl rfl
      split_ifs
      · exact hkeyed.finishConnect
      · exact (hkeyed.exchange deviceModelGet).modelProgress

theorem Seated.progress {caller : Caller} {command : CommandPayload} {out : World × Progress}
    (h : Seated w t out.2.seat out.1) :
    Seats t w (World.progress config prim t caller command out) := by
  cases caller with
  | send => exact h.sendProgress
  | connectKey firmware => exact h.keyProgress
  | connectModel => exact h.modelProgress

theorem Seated.gotRevision (h : Seated w t .away v) (raw : Bytes) : Seats t w (v.gotRevision t raw) := by
  unfold World.gotRevision
  split
  · exact h.failConnect _
  · rename_i firmware hfirmware
    split_ifs
    · exact h.failConnect _
    · let read : World := { v with session := { v.session with
        firmware := some firmware, refs := some (.forFirmware firmware) } }
      have hread : Seated w t .away read := h.congr rfl rfl rfl
      exact Seated.setTask (.subscribing firmware) hread

theorem Seated.subscribed (h : Seated w t .away v) (firmware : FirmwareVersion) :
    Seats t w (v.subscribed config prim t firmware) := by
  unfold World.subscribed
  split
  · exact h.failConnect _
  · rename_i command hcommand
    exact (h.exchange command).keyProgress

theorem Seated.startSend (h : Seated w t .away w) (command : CommandPayload) (skipAppGates : Bool) :
    Seats t w (w.startSend config t command skipAppGates) := by
  unfold World.startSend
  split_ifs
  · split
    · exact h.finish _
    · simp only
      split_ifs
      · exact h.finish _
      · exact (h.exchange command).sendProgress
  · exact h.finish _

theorem Seated.startConnect (h : Seated w t .away w) : Seats t w (w.startConnect t) := by
  unfold World.startConnect
  split_ifs
  · let connecting : World := { w with session := { w.session with state := .connecting } }
    have hconnecting : Seated w t .away connecting := h.congr rfl rfl rfl
    exact Seated.setTask .readingRevision hconnecting
  · exact h.finish _

theorem consumeInterrupt_of_none (h : w.interrupts t = none) : w.consumeInterrupt t = w := by
  rw [World.consumeInterrupt, ← h, Function.update_eq_self]

/-- A waiter that was thrown out of the queue leaves it in its next turn. -/
theorem Seated.abandon (ht : w.seat t = .queued) :
    Seated w t .away ((w.consumeInterrupt t).withLock (w.session.commandLock.abandon t)) := by
  refine ⟨?_, rfl, fun u hu => Function.update_of_ne hu ..⟩
  have hthrown : (fun u => ((w.consumeInterrupt t).interrupts u).isSome) =
      Function.update w.clients.thrown t false := by
    funext u
    by_cases hu : u = t
    · simp [World.consumeInterrupt, hu]
    · simp [World.consumeInterrupt, World.clients, hu]
  show ClientMoves w.clients
    ⟨w.session.commandLock.abandon t, _, fun u => ((w.consumeInterrupt t).interrupts u).isSome⟩
  rw [hthrown]
  exact .single (.abandon (c := w.clients) ht)

theorem exchanging_seats {caller : Caller} {command : CommandPayload} {await : Await} {reply : Reply}
    (ht : w.tasks t = some (.exchanging caller command await))
    (h : (w.consumeInterrupt t).resumeTask config prim t (w.interrupts t) reply
      (.exchanging caller command await) = some w') : Seats t w w' := by
  have hseat : w.seat t = await.seat := World.seat_of_tasks ht
  cases hi : w.interrupts t with
  | some i =>
    simp only [World.resumeTask, hi, Option.some.injEq] at h
    subst h
    by_cases hqueued : await = .acquiring
    · subst hqueued
      have habandoned := Seated.abandon hseat
      exact Seated.progress habandoned
    · have hinside : await.seat = .inside := by cases await <;> simp_all [Await.seat]
      rw [hinside] at hseat
      exact ((Seated.consume hseat (by simp)).keeps (interruptExchange_keeps command i hinside)).progress
  | none =>
    simp only [World.resumeTask, hi, consumeInterrupt_of_none hi, Option.map_eq_some_iff] at h
    obtain ⟨out, hout, rfl⟩ := h
    by_cases hqueued : await = .acquiring
    · subst hqueued
      simp only [World.resumeExchange, Option.map_eq_some_iff] at hout
      obtain ⟨lock, htake, rfl⟩ := hout
      have hstart := Seated.start hseat
      have hmoves : ClientMoves w.clients
          ⟨lock, Function.update w.seat t .inside, fun u => (w.interrupts u).isSome⟩ :=
        .single (.take (c := w.clients) hseat htake)
      have hinside : Seated w t .inside (w.withLock lock) := ⟨hmoves, rfl, fun _ _ => rfl⟩
      exact (hinside.keeps (afterAcquire_keeps command)).progress
    · have hinside : await.seat = .inside := by cases await <;> simp_all [Await.seat]
      rw [hinside] at hseat
      exact ((Seated.start hseat).keeps (resumeExchange_keeps hinside hout)).progress

theorem resume_seats {reply : Reply} (h : w.resume config prim t reply = some w') : Seats t w w' := by
  simp only [World.resume, Option.bind_eq_some_iff] at h
  obtain ⟨task, htask, h⟩ := h
  have hseat := World.seat_of_tasks htask
  cases task with
  | readingRevision =>
    have hconsumed : Seated w t .away (w.consumeInterrupt t) := .consume hseat (by simp)
    simp only [World.resumeTask] at h
    split at h <;> obtain rfl := Option.some.inj h
    · exact hconsumed.gotRevision _
    · exact hconsumed.failConnect _
  | subscribing firmware =>
    have hconsumed : Seated w t .away (w.consumeInterrupt t) := .consume hseat (by simp)
    simp only [World.resumeTask] at h
    split at h <;> obtain rfl := Option.some.inj h
    · exact hconsumed.subscribed firmware
    · exact hconsumed.failConnect _
  | exchanging caller command await => exact exchanging_seats htask h
  | failingConnect e =>
    have hconsumed : Seated w t .away (w.consumeInterrupt t) := .consume hseat (by simp)
    simp only [World.resumeTask] at h
    split at h <;> obtain rfl := Option.some.inj h <;> exact hconsumed.finish _
  | closing =>
    have hconsumed : Seated w t .away (w.consumeInterrupt t) := .consume hseat (by simp)
    simp only [World.resumeTask] at h
    split at h <;> obtain rfl := Option.some.inj h <;> exact hconsumed.finish _
  | finished result => simp [World.resumeTask] at h

theorem clients_congr (htasks : w'.tasks = w.tasks) (hinterrupts : w'.interrupts = w.interrupts)
    (hlock : w'.session.commandLock = w.session.commandLock) : w'.clients = w.clients := by
  rw [World.clients, World.clients, World.seat_congr htasks, hinterrupts, hlock]

theorem interrupt_clients (i : Interrupt) :
    ClientMoves w.clients (w.interrupt t i).clients ∧ (w.interrupt t i).tasks = w.tasks ∧
      ∀ u, u ≠ t → (w.interrupt t i).interrupts u = w.interrupts u := by
  have hthrown : (fun u => (Function.update w.interrupts t (some i) u).isSome) =
      Function.update w.clients.thrown t true := by
    funext u
    by_cases hu : u = t
    · simp [hu]
    · simp [World.clients, hu]
  have hthrow : w.seat t ≠ .queued → ∀ v : World, v.tasks = w.tasks →
      v.interrupts = Function.update w.interrupts t (some i) →
      v.session.commandLock = w.session.commandLock → ClientMoves w.clients v.clients := by
    intro hseat v htasks hinterrupts hlock
    rw [World.clients.eq_1 v, World.seat_congr htasks, hinterrupts, hlock, hthrown]
    exact .single (.throw (c := w.clients) (a := t) hseat true)
  unfold World.interrupt
  simp only
  split
  · rename_i caller command ht
    refine ⟨?_, rfl, fun u hu => Function.update_of_ne hu ..⟩
    have hseat : w.seat t = .queued := World.seat_of_tasks ht
    have hcancel := Clients.Move.cancelWait (c := w.clients) (a := t) hseat
    rw [← hthrown] at hcancel
    exact .single hcancel
  · rename_i caller command call ht
    refine ⟨hthrow ?_ _ rfl rfl rfl, rfl, fun u hu => Function.update_of_ne hu ..⟩
    have hseat : w.seat t = .inside := World.seat_of_tasks ht
    simp [hseat]
  · rename_i hacquiring hanswering
    refine ⟨hthrow ?_ _ rfl rfl rfl, rfl, fun u hu => Function.update_of_ne hu ..⟩
    intro hseat
    cases ht : w.tasks t with
    | none => simp [World.seat, ht] at hseat
    | some task =>
      rw [World.seat_of_tasks ht] at hseat
      cases task with
      | exchanging caller command await =>
        cases await with
        | acquiring => exact hacquiring caller command ht
        | pausing | writing | answering => simp [Coroutine.seat, Await.seat] at hseat
      | readingRevision | subscribing | failingConnect | closing | finished =>
        simp [Coroutine.seat] at hseat

theorem onNotification_same (data : Bytes) (origin : Option Nat) :
    (w.onNotification data origin).interrupts = w.interrupts ∧
      (w.onNotification data origin).session.commandLock = w.session.commandLock := by
  unfold World.onNotification World.takeResponse World.dispatchEvent
  simp only
  repeat' split
  all_goals exact ⟨rfl, rfl⟩

theorem onDisconnect_same : w.onDisconnect.tasks = w.tasks ∧
    w.onDisconnect.interrupts = w.interrupts ∧
      w.onDisconnect.session.commandLock = w.session.commandLock := by
  unfold World.onDisconnect
  split_ifs
  · exact ⟨rfl, rfl, rfl⟩
  · exact ⟨failPending_tasks _, failPending_same
      { w with session := { w.session with state := .closed, stream := w.session.stream.reset } }
      "The lock disconnected before it answered"⟩

/-- What a turn leaves of the coroutines it does not run. -/
structure Apart (l : Label) (w w' : World) : Prop where
  tasks : ∀ u, (∀ reply, l ≠ .resume u reply) → w.tasks u ≠ none → w'.tasks u = w.tasks u
  interrupts : ∀ u, (∀ reply, l ≠ .resume u reply) → l ≠ .cancel u → l ≠ .expire u → w.tasks u ≠ none →
    w'.interrupts u = w.interrupts u

theorem Apart.of_eq {l : Label} (htasks : w'.tasks = w.tasks) (hinterrupts : w'.interrupts = w.interrupts) :
    Apart l w w' :=
  ⟨fun u _ _ => congrFun htasks u, fun u _ _ _ _ => congrFun hinterrupts u⟩

theorem step_clients {l : Label} (h : w.step config prim l = some w') :
    ClientMoves w.clients w'.clients ∧ Apart l w w' := by
  have hbegun : ∀ {t}, (w.tasks t).isNone = true → Seats t w w' →
      ClientMoves w.clients w'.clients ∧ Apart l w w' := by
    intro t hnone hseats
    have hne : ∀ u, w.tasks u ≠ none → u ≠ t := by
      rintro u hu rfl
      exact hu (Option.isNone_iff_eq_none.mp hnone)
    exact ⟨hseats.moves, fun u _ hu => hseats.tasks u (hne u hu),
      fun u _ _ _ hu => hseats.interrupts u (hne u hu)⟩
  have hinterrupt : ∀ {t i}, l = .cancel t ∨ l = .expire t → w' = w.interrupt t i →
      ClientMoves w.clients w'.clients ∧ Apart l w w' := by
    rintro t i hl rfl
    obtain ⟨hmoves, htasks, hinterrupts⟩ := interrupt_clients (w := w) (t := t) i
    refine ⟨hmoves, fun u _ _ => congrFun htasks u, fun u _ hcancel hexpire _ => hinterrupts u ?_⟩
    rintro rfl
    rcases hl with rfl | rfl
    · exact hcancel rfl
    · exact hexpire rfl
  cases l with
  | connect tid =>
    simp only [World.step] at h
    split_ifs at h with hnone
    obtain rfl := Option.some.inj h
    exact hbegun hnone (Seated.start (World.seat_of_isNone hnone)).startConnect
  | send tid command skipAppGates =>
    simp only [World.step] at h
    split_ifs at h with hnone
    obtain rfl := Option.some.inj h
    exact hbegun hnone ((Seated.start (World.seat_of_isNone hnone)).startSend command skipAppGates)
  | close tid =>
    simp only [World.step] at h
    split_ifs at h with hnone
    obtain rfl := Option.some.inj h
    have hstart : Seated w tid .away w := .start (World.seat_of_isNone hnone)
    exact hbegun hnone (Seated.setTask .closing hstart.closeSession)
  | resume tid reply =>
    have hseats : Seats tid w w' := resume_seats h
    have hne : ∀ u, (∀ reply', Label.resume tid reply ≠ .resume u reply') → u ≠ tid := by
      rintro u hu rfl
      exact hu reply rfl
    exact ⟨hseats.moves, fun u hu _ => hseats.tasks u (hne u hu),
      fun u hu _ _ _ => hseats.interrupts u (hne u hu)⟩
  | cancel tid =>
    simp only [World.step] at h
    split_ifs at h
    exact hinterrupt (.inl rfl) (Option.some.inj h).symm
  | expire tid =>
    simp only [World.step, Option.bind_eq_some_iff] at h
    obtain ⟨call, -, h⟩ := h
    split_ifs at h
    exact hinterrupt (.inr rfl) (Option.some.inj h).symm
  | notify data origin =>
    obtain rfl := Option.some.inj h
    rw [clients_congr (onNotification_tasks data origin) (onNotification_same data origin).1
      (onNotification_same data origin).2]
    exact ⟨.refl, .of_eq (onNotification_tasks data origin) (onNotification_same data origin).1⟩
  | disconnect =>
    obtain rfl := Option.some.inj h
    obtain ⟨htasks, hinterrupts, hlock⟩ := onDisconnect_same (w := w)
    rw [clients_congr htasks hinterrupts hlock]
    exact ⟨.refl, .of_eq htasks hinterrupts⟩
  | tick ticks =>
    obtain rfl := Option.some.inj h
    exact ⟨.refl, .of_eq rfl rfl⟩

theorem orderly_of_reachable {ls : List Label}
    (hr : exec (World.step config prim) (.new config) ls = some w) : w.clients.Orderly := by
  refine exec_invariant (I := fun v => v.clients.Orderly)
    (fun _ _ _ hi hs => hi.moves (step_clients hs).1) ?_ hr
  refine ⟨?_, ?_, ?_, ?_, ?_, ?_⟩ <;>
    simp [World.clients, World.seat, World.new, Session.new, FifoLock.free]

end

end OnestiLock
