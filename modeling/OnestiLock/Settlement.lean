import OnestiLock.SessionDrain

/-! Single flight and settlement of a session. After a close every response
comes too late, the command in flight needs no timer, and whoever waits is
turned away. -/

namespace OnestiLock

open FifoLock Transition

/-- The turns of one coroutine. -/
def TurnOf (t : TaskId) (l : Label) : Prop := ∃ reply, l = .resume t reply

abbrev SessionRun (config : SessionConfig) (prim : Primitives) := Behaviour (World.step config prim)

/-- Every coroutine that can go on does at some time: the transport returns or raises, and the
event loop runs what is ready. -/
def SessionRun.Fair {config : SessionConfig} {prim : Primitives} (run : SessionRun config prim) : Prop :=
  ∀ t, run.WeaklyFair (TurnOf t)

def SessionRun.ClockRuns {config : SessionConfig} {prim : Primitives} (run : SessionRun config prim) : Prop :=
  ∀ time, ∃ n, time ≤ (run.state n).now

section

variable {config : SessionConfig} {prim : Primitives} {w w' : World} {t : TaskId} {l : Label}

/-! The command in flight. -/

/-- Coroutine `t` runs a command whose outcome is settled. -/
structure Settled (config : SessionConfig) (prim : Primitives) (t : TaskId) (call : Nat) (w : World) : Prop where
  reached : ∃ ls, exec (World.step config prim) (.new config) ls = some w
  runs : ∃ caller command await, w.tasks t = some (.exchanging caller command await) ∧ await.call? = some call
  done : (w.calls call).future.isWaiting = false

theorem Settled.issued {call : Nat} (h : Settled config prim t call w) : call < w.issued := by
  obtain ⟨ls, hr⟩ := h.reached
  obtain ⟨caller, command, await, htask, hcall⟩ := h.runs
  exact ((Secret.reachable hr).tasks t caller command await htask).1.call_issued hcall

def World.turnsOf (w : World) (t : TaskId) : Nat := ((w.tasks t).map Coroutine.turns).getD 0

theorem Settled.turn {call : Nat} (h : Settled config prim t call w) (reply : Reply) :
    ∃ w', w.step config prim (.resume t reply) = some w' ∧
      ((w'.calls call).ended ≠ none ∨ Settled config prim t call w' ∧ w'.turnsOf t < w.turnsOf t) := by
  obtain ⟨ls, hr⟩ := h.reached
  obtain ⟨caller, command, await, htask, hcall⟩ := h.runs
  have hturn : ∃ v, w.step config prim (.resume t reply) = some v ∧ _ :=
    resume_done (Secret.reachable hr).tasks htask hcall h.done reply
  obtain ⟨v, hv, hnext⟩ := hturn
  refine ⟨v, hv, ?_⟩
  rcases hnext with ⟨hended, -⟩ | ⟨await', htask', hcall', hturns⟩
  · exact .inl hended
  · have hkept : Kept call (w.calls call).future w := ⟨h.issued, rfl⟩
    have hdone : (v.calls call).future.isWaiting = false := by
      rw [(hkept.step hv h.done).same]
      exact h.done
    refine .inr ⟨⟨reached_step ⟨ls, hr⟩ hv, ⟨caller, command, await', htask', hcall'⟩, hdone⟩, ?_⟩
    simp only [World.turnsOf, htask, htask', Option.map_some, Option.getD_some, Coroutine.turns]
    omega

theorem Settled.other {call : Nat} (h : Settled config prim t call w) (hl : ¬ TurnOf t l)
    (hs : w.step config prim l = some w') : Settled config prim t call w' ∧ w'.turnsOf t = w.turnsOf t := by
  obtain ⟨caller, command, await, htask, hcall⟩ := h.runs
  have hsame : w'.tasks t = w.tasks t := by
    refine (step_clients hs).2.tasks t ?_ (by simp [htask])
    rintro reply rfl
    exact hl ⟨reply, rfl⟩
  have hkept : Kept call (w.calls call).future w := ⟨h.issued, rfl⟩
  have hdone : (w'.calls call).future.isWaiting = false := by
    rw [(hkept.step hs h.done).same]
    exact h.done
  refine ⟨⟨reached_step h.reached hs, ⟨caller, command, await, hsame.trans htask, hcall⟩, hdone⟩, ?_⟩
  simp only [World.turnsOf, hsame]

/-- It ends once its remaining writes have returned or raised. -/
theorem Settled.ends_with_writes {call : Nat} {replies : List Reply} (h : Settled config prim t call w)
    (hreplies : w.turnsOf t ≤ replies.length + 1) : ∃ n ≤ replies.length, ∃ w',
      exec (World.step config prim) w ((replies.take n).map (Label.resume t)) = some w' ∧
        (w'.calls call).ended ≠ none := by
  induction replies generalizing w with
  | nil =>
    obtain ⟨caller, command, await, htask, hcall⟩ := h.runs
    simp only [World.turnsOf, htask, Option.map_some, Option.getD_some, Coroutine.turns, List.length_nil]
      at hreplies
    cases await with
    | acquiring | pausing => simp [Await.call?] at hcall
    | writing | answering => simp [Await.turns] at hreplies
  | cons reply replies ih =>
    obtain ⟨v, hs, hnext⟩ := h.turn reply
    rcases hnext with hended | ⟨hsettled, hlt⟩
    · exact ⟨1, by simp, v, exec_cons.mpr ⟨v, hs, rfl⟩, hended⟩
    · simp only [List.length_cons] at hreplies
      obtain ⟨n, hn, w', hexec, hended⟩ := ih hsettled (by omega)
      refine ⟨n + 1, by simp only [List.length_cons]; omega, w', ?_, hended⟩
      simpa only [List.take_succ_cons, List.map_cons] using exec_cons.mpr ⟨v, hs, hexec⟩

/-- It ends in every fair run, even in one whose clock stands still. -/
theorem Settled.ends {call : Nat} {run : SessionRun config prim} (hfair : run.Fair) {n : Nat}
    (h : Settled config prim t call (run.state n)) :
    ∃ m, n ≤ m ∧ ((run.state m).calls call).ended ≠ none := by
  refine run.eventually_of_rank (I := Settled config prim t call) (G := fun v => (v.calls call).ended ≠ none)
    (fun v => v.turnsOf t) (fun _ => t) hfair ?_ ?_ h
  · intro v hv
    obtain ⟨v', hs, -⟩ := hv.turn (.returned [])
    exact ⟨.resume t (.returned []), ⟨_, rfl⟩, by simp [hs]⟩
  · intro v l v' hv hs
    by_cases hl : TurnOf t l
    · obtain ⟨reply, rfl⟩ := hl
      obtain ⟨u, hu, hnext⟩ := hv.turn reply
      obtain rfl := Option.some.inj (hs.symm.trans hu)
      rcases hnext with hended | ⟨hsettled, hlt⟩
      · exact .inl hended
      · exact .inr ⟨hsettled, .inl hlt⟩
    · obtain ⟨hsettled, hturns⟩ := hv.other hl hs
      exact .inr ⟨hsettled, .inr ⟨hturns, rfl, hl⟩⟩

/-! The commands that wait. -/

theorem waits_seat (ht : w.Waits t) : w.seat t ≠ .away := by
  obtain ⟨command, await, htask, hcall⟩ := ht
  rw [World.seat_of_tasks htask]
  cases await <;> simp [Coroutine.seat, Await.seat]

/-- Pauses that are over by a time. -/
def PausesBy (time : Nat) (w : World) : Prop := ∀ u wake, w.hold u = .paused wake → wake ≤ time

theorem inside_enabled {time : Nat} (hd : Draining config prim w) (hp : PausesBy time w) (hnow : time ≤ w.now)
    (ht : w.seat t = .inside) (reply : Reply) : ∃ w', w.step config prim (.resume t reply) = some w' := by
  obtain ⟨caller, command, await, htask, -⟩ := exchanging_of_seat (w := w) (t := t) (by simp [ht])
  obtain ⟨ls, hr⟩ := hd.reached
  cases hcall : await.call? with
  | some call =>
    have hturn : ∃ v, w.step config prim (.resume t reply) = some v ∧ _ :=
      resume_done (Secret.reachable hr).tasks htask hcall (hd.done htask hcall) reply
    exact ⟨_, hturn.choose_spec.1⟩
  | none =>
    cases hi : w.interrupts t with
    | some i =>
      exact ⟨World.progress config prim t caller command
        ((w.consumeInterrupt t).interruptExchange config t command i await),
        by simp [World.step, World.resume, World.resumeTask, htask, hi]⟩
    | none =>
      cases await with
      | acquiring =>
        rw [World.seat_of_tasks htask] at ht
        simp [Coroutine.seat, Await.seat] at ht
      | pausing wake =>
        have hwake : wake ≤ w.now := Nat.le_trans (hp t wake (World.hold_of_tasks htask)) hnow
        have hwake' : wake ≤ (w.consumeInterrupt t).now := hwake
        exact ⟨World.progress config prim t caller command ((w.consumeInterrupt t).afterPause config command),
          by simp [World.step, World.resume, World.resumeTask, htask, hi, World.resumeExchange, hwake']⟩
      | writing call rest => simp [Await.call?] at hcall
      | answering call => simp [Await.call?] at hcall

theorem queued_enabled (ht : w.seat t = .queued)
    (hfirst : (w.session.commandLock.take t).isSome = true ∨ (w.interrupts t).isSome = true) (reply : Reply) :
    ∃ w', w.step config prim (.resume t reply) = some w' := by
  obtain ⟨caller, command, await, htask, hseat⟩ := exchanging_of_seat (w := w) (t := t) (by simp [ht])
  rw [ht] at hseat
  obtain rfl : await = .acquiring := by
    cases await with
    | acquiring => rfl
    | pausing | writing | answering => simp [Await.seat] at hseat
  cases hi : w.interrupts t with
  | some i =>
    exact ⟨World.progress config prim t caller command
      ((w.consumeInterrupt t).interruptExchange config t command i .acquiring),
      by simp [World.step, World.resume, World.resumeTask, htask, hi]⟩
  | none =>
    obtain ⟨lock, hlock⟩ := Option.isSome_iff_exists.mp (by simpa [hi] using hfirst)
    have hlock' : (w.consumeInterrupt t).session.commandLock.take t = some lock := hlock
    exact ⟨World.progress config prim t caller command
      (((w.consumeInterrupt t).withLock lock).afterAcquire config command),
      by simp [World.step, World.resume, World.resumeTask, htask, hi, World.resumeExchange, hlock']⟩

/-- While somebody waits, the one whose turn is next can take it. -/
theorem helper_enabled {time : Nat} (hd : Draining config prim w) (hp : PausesBy time w) (hnow : time ≤ w.now)
    (ht : w.Waits t) (reply : Reply) :
    w.seat w.helper ≠ .away ∧ ∃ w', w.step config prim (.resume w.helper reply) = some w' := by
  have hc := hd.orderly
  cases hholder : w.session.commandLock.holder with
  | some u =>
    have hhelper : w.helper = u := by simp [World.helper, hholder]
    have hinside : w.seat u = .inside := (hc.inside u).mpr hholder
    rw [hhelper]
    exact ⟨by simp [hinside], inside_enabled hd hp hnow hinside reply⟩
  | none =>
    have hqueued : w.seat t = .queued := by
      cases hseat : w.seat t with
      | away => exact absurd hseat (waits_seat ht)
      | queued => rfl
      | inside =>
        have hheld : w.session.commandLock.holder = some t := (hc.inside t).mp hseat
        rw [hholder] at hheld
        simp at hheld
    cases hwaiters : w.session.commandLock.waiters with
    | nil =>
      have hmem := (hc.queued t).mp hqueued
      simp [World.clients, hwaiters] at hmem
    | cons first rest =>
      have hhelper : w.helper = first.1 := by simp [World.helper, hholder, hwaiters]
      have hfirst : w.seat first.1 = .queued := by
        refine (hc.queued first.1).mpr ?_
        simp [World.clients, hwaiters]
      rw [hhelper]
      exact ⟨by simp [hfirst], queued_enabled hfirst (hc.first hholder hwaiters) reply⟩

theorem waits_other (ht : w.Waits t) (hl : ¬ TurnOf t l) (hs : w.step config prim l = some w') :
    w'.Waits t ∧ (l ≠ .cancel t → w'.interrupts t = w.interrupts t) := by
  obtain ⟨command, await, htask, hcall⟩ := ht
  have hresume : ∀ reply, l ≠ .resume t reply := by
    rintro reply rfl
    exact hl ⟨reply, rfl⟩
  have hlive : w.tasks t ≠ none := by simp [htask]
  refine ⟨⟨command, await, ((step_clients hs).2.tasks t hresume hlive).trans htask, hcall⟩, ?_⟩
  intro hcancel
  refine (step_clients hs).2.interrupts t hresume hcancel ?_ hlive
  rintro rfl
  cases await with
  | acquiring | pausing => simp [World.step, World.inFlight, htask] at hs
  | writing | answering => simp [Await.call?] at hcall

/-- While a command waits, the helpers' turns use up what is left. -/
theorem waits_rank {time : Nat} (hd : Draining config prim w) (hp : PausesBy time w) (hnow : time ≤ w.now)
    (ht : w.Waits t) (hs : w.step config prim l = some w') :
    w'.left < w.left ∨ w'.left = w.left ∧ w'.helper = w.helper ∧ ¬ TurnOf w.helper l := by
  by_cases hl : ∀ u reply, l = .resume u reply → w.seat u = .away
  · obtain ⟨hleft, hhelper⟩ := hd.left_same hl hs
    refine .inr ⟨hleft, hhelper, ?_⟩
    rintro ⟨reply, rfl⟩
    exact (helper_enabled hd hp hnow ht reply).1 (hl _ reply rfl)
  · push Not at hl
    obtain ⟨u, reply, rfl, hu⟩ := hl
    exact .inl (hd.left_lt hu hs)

section

variable {run : SessionRun config prim}

theorem draining_run (h : Draining config prim (run.state 0)) (n : Nat) : Draining config prim (run.state n) :=
  run.invariant (fun _ _ _ hd hs => hd.step hs) (Nat.zero_le n) h

theorem pausesBy_run (h : Draining config prim (run.state 0)) (n : Nat) :
    PausesBy (run.state 0).session.readyAt (run.state n) := by
  induction n with
  | zero =>
    obtain ⟨ls, hr⟩ := h.reached
    have hflight : Flight config (run.state 0) (run.state 0).hold := Flight.reachable hr
    exact fun u wake hu => Nat.le_of_eq (hflight.paused u wake hu).symm
  | succ n ih => exact fun u wake hu => ih u wake ((draining_run h n).paused (run.next n) hu)

/-- A cancellation has reached the coroutine by this point of the run. -/
def CancelledBy (run : SessionRun config prim) (t : TaskId) (n : Nat) : Prop :=
  (run.state 0).interrupts t ≠ none ∨ ∃ m < n, run.label m = .cancel t

/-- The coroutine has ended with a `BleDisconnectedError`, unless it was cancelled. -/
def TurnedAwayBy (run : SessionRun config prim) (t : TaskId) (n : Nat) : Prop :=
  ∃ e, (run.state n).tasks t = some (.finished (.error e)) ∧
    (e = .ble (.disconnected "The session is closed") ∨ e = .cancelled ∧ CancelledBy run t n)

theorem CancelledBy.succ {n : Nat} (h : CancelledBy run t n) : CancelledBy run t (n + 1) := by
  rcases h with hfirst | ⟨m, hm, hlabel⟩
  · exact .inl hfirst
  · exact .inr ⟨m, by omega, hlabel⟩

theorem waits_run (h : Draining config prim (run.state 0)) (ht : (run.state 0).Waits t) (n : Nat) :
    (run.state n).Waits t ∧ ((run.state n).interrupts t ≠ none → CancelledBy run t n) ∨
      TurnedAwayBy run t n := by
  induction n with
  | zero => exact .inl ⟨ht, .inl⟩
  | succ n ih =>
    have hs := run.next n
    rcases ih with ⟨hwaits, hcancelled⟩ | ⟨e, hfinished, he⟩
    · by_cases hl : TurnOf t (run.label n)
      · obtain ⟨reply, hlabel⟩ := hl
        rw [hlabel] at hs
        obtain ⟨hfinished, -⟩ := resume_waits (draining_run h n).closed hwaits hs
        refine .inr ⟨_, hfinished, ?_⟩
        cases hi : (run.state n).interrupts t with
        | none => exact .inl rfl
        | some i => exact .inr ⟨rfl, (hcancelled (by simp [hi])).succ⟩
      · obtain ⟨hwaits', hinterrupts⟩ := waits_other hwaits hl hs
        refine .inl ⟨hwaits', fun hi => ?_⟩
        by_cases hcancel : run.label n = .cancel t
        · exact .inr ⟨n, Nat.lt_succ_self n, hcancel⟩
        · rw [hinterrupts hcancel] at hi
          exact (hcancelled hi).succ
    · right
      have hl : ∀ reply, run.label n ≠ .resume t reply := by
        intro reply hlabel
        rw [hlabel] at hs
        simp [World.step, World.resume, hfinished, World.resumeTask] at hs
      refine ⟨e, ((step_clients hs).2.tasks t hl (by simp [hfinished])).trans hfinished, ?_⟩
      exact he.imp id (fun h => ⟨h.1, h.2.succ⟩)

theorem waits_writes (h : Draining config prim (run.state 0)) (ht : (run.state 0).Waits t) {n : Nat}
    (hl : TurnOf t (run.label n)) : (run.state (n + 1)).writes = (run.state n).writes := by
  obtain ⟨reply, hlabel⟩ := hl
  have hs := run.next n
  rw [hlabel] at hs
  rcases waits_run h ht n with ⟨hwaits, -⟩ | ⟨e, hfinished, -⟩
  · exact (resume_waits (draining_run h n).closed hwaits hs).2
  · simp [World.step, World.resume, hfinished, World.resumeTask] at hs

theorem waits_ends (hfair : run.Fair) (hclock : run.ClockRuns) (h : Draining config prim (run.state 0))
    (ht : (run.state 0).Waits t) : ∃ n, TurnedAwayBy run t n := by
  let time := (run.state 0).session.readyAt
  obtain ⟨n, hn⟩ := hclock time
  rcases waits_run h ht n with ⟨hwaits, -⟩ | hdone
  · let I : World → Prop := fun v =>
      Draining config prim v ∧ PausesBy time v ∧ time ≤ v.now ∧ v.Waits t
    have hrank : ∃ m, n ≤ m ∧ ¬ (run.state m).Waits t := by
      refine run.eventually_of_rank (I := I) (G := fun v => ¬ v.Waits t) World.left World.helper
        hfair ?_ ?_ ⟨draining_run h n, pausesBy_run h n, hn, hwaits⟩
      · rintro v ⟨hd, hp, hnow, hv⟩
        obtain ⟨-, v', hs⟩ := helper_enabled hd hp hnow hv (.returned [])
        exact ⟨.resume v.helper (.returned []), ⟨_, rfl⟩, by simp [hs]⟩
      · rintro v l v' ⟨hd, hp, hnow, hv⟩ hs
        by_cases hv' : v'.Waits t
        · have hp' : PausesBy time v' := fun u wake hu => hp u wake (hd.paused hs hu)
          exact .inr ⟨⟨hd.step hs, hp', Nat.le_trans hnow (step_now hs), hv'⟩, waits_rank hd hp hnow hv hs⟩
        · exact .inl hv'
    obtain ⟨m, -, hm⟩ := hrank
    rcases waits_run h ht m with ⟨hwaits', -⟩ | hdone
    · exact absurd hwaits' hm
    · exact ⟨m, hdone⟩
  · exact ⟨n, hdone⟩

end

theorem settled_of_inFlight {ls : List Label} {call : Nat}
    (hr : exec (World.step config prim) (.new config) ls = some w) (hclosed : w.session.state = .closed)
    (ht : w.inFlight t = some call) : Settled config prim t call w := by
  have hruns : ∃ caller command await, w.tasks t = some (.exchanging caller command await) ∧
      await.call? = some call := by
    unfold World.inFlight at ht
    split at ht
    · rename_i caller command call' rest htask
      exact ⟨caller, command, _, htask, ht⟩
    · rename_i caller command call' htask
      exact ⟨caller, command, _, htask, ht⟩
    · simp at ht
  refine ⟨⟨ls, hr⟩, hruns, ?_⟩
  obtain ⟨caller, command, await, htask, hcall⟩ := hruns
  exact done_of_closed hr hclosed (((Secret.reachable hr).tasks t caller command await htask).1.call_issued hcall)

theorem draining_of_waits {ls : List Label} (hr : exec (World.step config prim) (.new config) ls = some w)
    (hclosed : w.session.state = .closed) (ht : w.Waits t) : Draining config prim w := by
  obtain ⟨command, await, htask, -⟩ := ht
  refine ⟨⟨ls, hr⟩, hclosed, fun u => ?_⟩
  by_contra hconnects
  have hsending := ((Secret.reachable hr).linked.unfinished u (by simpa using hconnects)).2 t
  exact hsending (World.stage_of_tasks htask)

end

theorem waits_of_seat {w : World} {t : TaskId} (hseat : w.seat t = .queued) (hstage : w.stage t = .sending) :
    w.Waits t := by
  obtain ⟨caller, command, await, htask, hawait⟩ := exchanging_of_seat (w := w) (t := t) (by simp [hseat])
  rw [World.stage_of_tasks htask] at hstage
  rw [hseat] at hawait
  cases caller with
  | send =>
    refine ⟨command, await, htask, ?_⟩
    cases await with
    | acquiring => rfl
    | pausing | writing | answering => simp [Await.seat] at hawait
  | connectKey | connectModel => simp [Coroutine.stage] at hstage

/-- What a close leaves behind, seen from the state right after it. -/
structure AfterClose (config : SessionConfig) (prim : Primitives) (w : World) : Prop where
  late : ∀ ls w', exec (World.step config prim) w ls = some w' → ∀ k < w.issued,
    (w.calls k).future.isWaiting = false ∧ (w'.calls k).future = (w.calls k).future
  writes : ∀ t caller command await call, w.tasks t = some (.exchanging caller command await) →
    await.call? = some call → ∀ replies : List Reply, await.turns ≤ replies.length →
      ∃ n ≤ replies.length, ∃ w',
        exec (World.step config prim) w ((replies.take n).map (Label.resume t)) = some w' ∧
          (w'.calls call).ended ≠ none
  timerless : ∀ run : SessionRun config prim, run.state 0 = w → run.Fair → ∀ t call,
    w.inFlight t = some call → ∃ n, ((run.state n).calls call).ended ≠ none
  waiting : ∀ run : SessionRun config prim, run.state 0 = w → ∀ t, w.Waits t →
    (run.Fair → run.ClockRuns → ∃ n, TurnedAwayBy run t n) ∧
      ∀ n, TurnOf t (run.label n) → (run.state (n + 1)).writes = (run.state n).writes

theorem afterClose_of_closed {config : SessionConfig} {prim : Primitives} {ls : List Label} {w : World}
    (hr : exec (World.step config prim) (.new config) ls = some w) (hclosed : w.session.state = .closed) :
    AfterClose config prim w where
  late ms w' hms k hk := by
    have hdone := done_of_closed hr hclosed hk
    have hkept : Kept k (w.calls k).future w := ⟨hk, rfl⟩
    exact ⟨hdone, (hkept.run hms hdone).same⟩
  writes t caller command await call htask hcall replies hreplies := by
    have hissued := ((Secret.reachable hr).tasks t caller command await htask).1.call_issued hcall
    have hsettled : Settled config prim t call w :=
      ⟨⟨ls, hr⟩, ⟨caller, command, await, htask, hcall⟩, done_of_closed hr hclosed hissued⟩
    refine hsettled.ends_with_writes ?_
    simp only [World.turnsOf, htask, Option.map_some, Option.getD_some, Coroutine.turns]
    omega
  timerless run hrun hfair t call ht := by
    subst hrun
    obtain ⟨n, -, hended⟩ := (settled_of_inFlight hr hclosed ht).ends hfair
    exact ⟨n, hended⟩
  waiting run hrun t ht := by
    subst hrun
    have hd := draining_of_waits hr hclosed ht
    exact ⟨fun hfair hclock => waits_ends hfair hclock hd ht, fun n hl => waits_writes hd ht hl⟩

/-- One command at a time holds the pending slot, its end settles it and nobody
else's, and a close leaves nothing to wait for. -/
theorem single_flight_settlement (config : SessionConfig) (prim : Primitives) {ls : List Label} {w : World}
    (hr : exec (World.step config prim) (.new config) ls = some w) :
    SingleFlight w ∧ ∀ l w', w.step config prim l = some w' → KeepsOthers w w' ∧
      (((∃ tid, l = .close tid) ∨ l = .disconnect ∨ w'.session.state = .closed) →
        AfterClose config prim w') := by
  refine ⟨singleFlight_of_reachable hr, fun l w' hs => ⟨keepsOthers_of_step hr hs, fun hl => ?_⟩⟩
  have hr' : exec (World.step config prim) (.new config) (ls ++ [l]) = some w' :=
    exec_append.mpr ⟨w, hr, exec_cons.mpr ⟨w', hs, rfl⟩⟩
  refine afterClose_of_closed hr' ?_
  rcases hl with hclose | hdisconnect | hclosed
  · exact step_closes hs (.inl hclose)
  · exact step_closes hs (.inr hdisconnect)
  · exact hclosed

/-- One command in flight and another one waiting for it. -/
def twoSends : List Label :=
  [.connect 0, .resume 0 (.returned [52, 46, 54, 46, 53]), .resume 0 (.returned []),
    .resume 0 (.returned []), .notify ReopenedRun.exchangeKeyPubL (some 0), .resume 0 (.returned []),
    .tick 320, .send 2 ⟨.deviceNameGet, []⟩ false, .send 3 ⟨.deviceNameGet, []⟩ false]

theorem single_flight_settlement_two : ∃ w w',
    exec (World.step .scalarOne .scalarOne) (.new .scalarOne) twoSends = some w ∧
      w.step .scalarOne .scalarOne (.close 4) = some w' ∧ w'.inFlight 2 = some 1 ∧ w'.Waits 3 ∧
      SingleFlight w ∧ KeepsOthers w w' ∧ AfterClose .scalarOne .scalarOne w' := by
  have hrun : (exec (World.step .scalarOne .scalarOne) (.new .scalarOne) (twoSends ++ [.close 4])).map
      (fun w => (w.inFlight 2, w.seat 3, w.stage 3)) = some (some 1, .queued, .sending) := by decide +kernel
  simp only [Option.map_eq_some_iff, exec_append, exec_cons] at hrun
  obtain ⟨v, ⟨w, hw, w', hs, hv⟩, hrun⟩ := hrun
  obtain rfl := Option.some.inj hv
  obtain ⟨hflight, hrun⟩ := Prod.mk.inj hrun
  obtain ⟨hseat, hstage⟩ := Prod.mk.inj hrun
  obtain ⟨hsingle, hsteps⟩ := single_flight_settlement .scalarOne .scalarOne hw
  obtain ⟨hkeeps, hafter⟩ := hsteps _ _ hs
  exact ⟨w, w', hw, hs, hflight, waits_of_seat hseat hstage, hsingle, hkeeps, hafter (.inl ⟨4, rfl⟩)⟩

end OnestiLock
