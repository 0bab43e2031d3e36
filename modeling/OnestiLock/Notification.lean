import OnestiLock.Correlation

/-! `_on_notification` with every call in it that can raise: the parsers, the
tracer, the listeners and the future. -/

namespace OnestiLock

open Transition

/-- The caller's hooks that a notification runs, each by its event. -/
structure Tracer where
  packetIn : Bytes → Except Exn Unit
  response : Response → Except Exn Unit
  dropped : BleProtocolError → Bytes → Except Exn Unit

abbrev Listener := LockEvent → Except Exn Unit

/-- `try: call() except Exception: log it`. -/
def contained (call : Except Exn Unit) : Except Exn Unit :=
  match call with
  | .ok () => .ok ()
  | .error e => if e.isException then .ok () else .error e

/-- What a call of `_on_notification` leaves behind: the session, and the
listeners it called, by their place in the list. -/
abbrev HandledFrame := World × List (Nat × LockEvent)

/-- `ResponseId(command_id.value)`. -/
def lookUpResponseId (commandId : CommandId) : Except Exn Nat :=
  if (responseName? commandId.value).isSome then .ok (expectedResponseId commandId)
  else .error (.other "ValueError")

namespace World

variable (tracer : Tracer) (listeners : List Listener)

/-- `_drop`. -/
def dropFrame (w : World) (e : BleProtocolError) (data : Bytes) : Except Exn World := do
  contained (tracer.dropped e data)
  return w.drop e

def callListener (event : LockEvent) (entry : Listener × Nat) : Except Exn (Nat × LockEvent) := do
  contained (entry.1 event)
  return (entry.2, event)

def callListeners (event : LockEvent) : Except Exn (List (Nat × LockEvent)) :=
  listeners.zipIdx.mapM (callListener event)

/-- `_dispatch_event`. A payload that does not parse is serialized again for the tracer. -/
def handleEvent (w : World) (r : Response) : Except Exn HandledFrame :=
  match parseEvent r with
  | .error e => do
    let data ← validated r.toBytes
    return (← w.dropFrame tracer e data, [])
  | .ok none => .ok (w, [])
  | .ok (some event) => do
    let heard ← callListeners listeners event
    return ({ w with session := { w.session with events := w.session.events ++ [event] } }, heard)

/-- `pending.future.set_result`. -/
def setResult (w : World) (call : Nat) (origin : Option Nat) (r : Response) : Except Exn World :=
  if (w.calls call).future.isWaiting then .ok (w.complete call origin r)
  else .error (.other "InvalidStateError")

def handleResponse (w : World) (origin : Option Nat) (r : Response) : Except Exn HandledFrame := do
  contained (tracer.response r)
  if r.isEvent then w.handleEvent tracer listeners r
  else match w.session.pending with
  | none => return (w, [])
  | some p =>
    if (w.calls p.call).future.isWaiting = false ∨ r.commandRef ≠ p.commandRef then return (w, [])
    else
      let late ← if p.staticRef then do
          let expected ← lookUpResponseId p.commandId
          pure (decide (r.responseId ≠ expected))
        else pure false
      if late then return (w.drop (lateAnswer r p), [])
      else return (← w.setResult p.call origin r, [])

def handleNotification (w : World) (data : Bytes) (origin : Option Nat) : Except Exn HandledFrame := do
  contained (tracer.packetIn data)
  let received := w.session.stream.receive data
  let w := { w with session := { w.session with stream := received.2 } }
  match received.1 with
  | .error e => return (← w.dropFrame tracer e data, [])
  | .ok (.payload p) =>
    match Response.fromBytes p.data with
    | .error e => return (← w.dropFrame tracer e p.data, [])
    | .ok r => w.handleResponse tracer listeners origin r
  | .ok _ => return (w, [])

end World

/-! Nothing in it raises. -/

/-- Hooks whose failures are ordinary exceptions. -/
structure Ordinary (tracer : Tracer) (listeners : List Listener) : Prop where
  packetIn : ∀ data e, tracer.packetIn data = .error e → e.isException = true
  response : ∀ r e, tracer.response r = .error e → e.isException = true
  dropped : ∀ err data e, tracer.dropped err data = .error e → e.isException = true
  listeners : ∀ l ∈ listeners, ∀ event e, l event = .error e → e.isException = true

theorem contained_ok {call : Except Exn Unit} (h : ∀ e, call = .error e → e.isException = true) :
    contained call = .ok () := by
  cases hcall : call with
  | ok u => rfl
  | error e => simp [contained, h e hcall]

theorem lookUpResponseId_ok (commandId : CommandId) :
    lookUpResponseId commandId = .ok (expectedResponseId commandId) := by
  cases commandId <;> rfl

theorem heard_ok {event : LockEvent} {listeners : List Listener}
    (h : ∀ l ∈ listeners, ∀ event e, l event = .error e → e.isException = true) :
    World.callListeners listeners event =
      .ok ((List.range listeners.length).map (fun place => (place, event))) := by
  have hcalls : ∀ n, (listeners.zipIdx n).mapM (World.callListener event) =
      .ok ((List.range' n listeners.length).map (fun place => (place, event))) := by
    induction listeners with
    | nil => exact fun _ => rfl
    | cons listener listeners ih =>
      intro n
      have hfirst : World.callListener event (listener, n) = .ok (n, event) := by
        simp only [World.callListener, contained_ok (h listener (by simp) event), ok_bind, pure_eq_ok]
      have hrest := ih (fun l hl => h l (by simp [hl])) (n + 1)
      simp only [List.zipIdx_cons, List.mapM_cons, hfirst, ok_bind, pure_eq_ok, hrest,
        List.length_cons, List.range'_succ, List.map_cons]
  rw [World.callListeners, List.range_eq_range']
  exact hcalls 0

section

variable {tracer : Tracer} {listeners : List Listener}

/-- The events that this notification hands to the listeners. -/
def World.announced (w : World) (data : Bytes) : Option LockEvent :=
  (w.arrived data).bind (fun r => (parseEvent r).toOption.join)

/-- Every listener in turn hears the event, whatever the ones before it raised. -/
def World.heard (w : World) (listeners : List Listener) (data : Bytes) : List (Nat × LockEvent) :=
  (w.announced data).toList.flatMap
    (fun event => (List.range listeners.length).map (fun place => (place, event)))

variable (h : Ordinary tracer listeners) {w : World}

include h

theorem Ordinary.dropFrame (e : BleProtocolError) (data : Bytes) :
    w.dropFrame tracer e data = .ok (w.drop e) := by
  simp only [World.dropFrame, contained_ok (h.dropped e data), ok_bind, pure_eq_ok]

theorem Ordinary.handleEvent {r : Response} (hfits : r.Fits) :
    w.handleEvent tracer listeners r = .ok (w.dispatchEvent r,
      (parseEvent r).toOption.join.toList.flatMap
        (fun event => (List.range listeners.length).map (fun place => (place, event)))) := by
  unfold World.handleEvent World.dispatchEvent
  cases hevent : parseEvent r with
  | error e =>
    simp only [hfits.toBytes, validated_ok, ok_bind, h.dropFrame, pure_eq_ok]
    rfl
  | ok event =>
    cases event with
    | none => rfl
    | some event =>
      simp only [heard_ok h.listeners, ok_bind, pure_eq_ok, Except.toOption, Option.join_some,
        Option.toList_some, List.flatMap_cons, List.flatMap_nil, List.append_nil]

theorem Ordinary.handleResponse (origin : Option Nat) {r : Response} (hfits : r.Fits) :
    w.handleResponse tracer listeners origin r = .ok (w.takeResponse origin r,
      (parseEvent r).toOption.join.toList.flatMap
        (fun event => (List.range listeners.length).map (fun place => (place, event)))) := by
  unfold World.handleResponse World.takeResponse
  rw [contained_ok (h.response r), ok_bind]
  by_cases hevent : r.isEvent = true
  · rw [if_pos hevent, if_pos hevent, h.handleEvent hfits]
  · have hnone : parseEvent r = .ok none := by simp [parseEvent, hevent]
    rw [if_neg hevent, if_neg hevent, hnone]
    cases hpending : w.session.pending with
    | none => rfl
    | some p =>
      by_cases hmatch : (w.calls p.call).future.isWaiting = false ∨ r.commandRef ≠ p.commandRef
      · simp only [if_pos hmatch]
        rfl
      · simp only [if_neg hmatch]
        have hwaiting : (w.calls p.call).future.isWaiting = true := by
          simpa using (not_or.mp hmatch).1
        have hset : w.setResult p.call origin r = .ok (w.complete p.call origin r) := by
          simp only [World.setResult, hwaiting, if_true]
        by_cases hstatic : p.staticRef = true
        · by_cases hid : r.responseId = expectedResponseId p.commandId
          · simp [hstatic, lookUpResponseId_ok, hid, hset, Except.toOption]
          · simp [hstatic, lookUpResponseId_ok, hid, Except.toOption]
        · simp [hstatic, hset, Except.toOption]

/-- With ordinary hooks `_on_notification` returns, having done what the plain
model of it does. -/
theorem Ordinary.handleNotification (w : World) (data : Bytes) (origin : Option Nat) :
    w.handleNotification tracer listeners data origin =
      .ok (w.onNotification data origin, w.heard listeners data) := by
  unfold World.handleNotification World.onNotification World.heard World.announced World.arrived
  rw [contained_ok (h.packetIn data), ok_bind]
  cases hreceived : (w.session.stream.receive data).1 with
  | error e =>
    simp only [hreceived, h.dropFrame, ok_bind, pure_eq_ok]
    rfl
  | ok received =>
    cases received with
    | status packet => simp only [hreceived, pure_eq_ok]; rfl
    | none => simp only [hreceived, pure_eq_ok]; rfl
    | payload payload =>
      cases hresponse : Response.fromBytes payload.data with
      | error e =>
        simp only [hreceived, hresponse, h.dropFrame, ok_bind, pure_eq_ok]
        rfl
      | ok r =>
        have hfits := Response.fits_of_fromBytes hresponse
        simp only [hreceived, hresponse, h.handleResponse origin hfits]
        rfl

end

/-! What a notification may change. -/

/-- Bytes that one of the parsers refuses. -/
def World.Malformed (w : World) (data : Bytes) : Prop :=
  (∃ e, (w.session.stream.receive data).1 = .error e) ∨
  (∃ p e, (w.session.stream.receive data).1 = .ok (.payload p) ∧ Response.fromBytes p.data = .error e) ∨
  ∃ r e, w.arrived data = some r ∧ parseEvent r = .error e

/-- The stream has taken the notification. -/
def World.received (w : World) (data : Bytes) : World :=
  { w with session := { w.session with stream := (w.session.stream.receive data).2 } }

structure SafeNotification (w : World) (data : Bytes) (w' : World) (heard : List (Nat × LockEvent)) :
    Prop where
  pending : w'.session.pending = w.session.pending
  completes : ∀ k, w'.calls k = w.calls k ∨ ∃ r p, w.arrived data = some r ∧
    w.session.pending = some p ∧ p.call = k ∧ (w.calls k).future = .waiting ∧
    (w'.calls k).future = .answered r ∧ r.isEvent = false ∧ r.commandRef = (w.calls k).commandRef ∧
    ((w.calls k).staticRef = true → r.responseId = expectedResponseId p.commandId)
  event : ∀ r, w.arrived data = some r → r.commandRef = 128 →
    w'.calls = w.calls ∧ w'.session.pending = w.session.pending
  malformed : w.Malformed data → ∃ e, w' = (w.received data).drop e
  listeners : ∀ place event, (place, event) ∈ heard →
    ∃ r, w.arrived data = some r ∧ parseEvent r = .ok (some event)

section

variable {config : SessionConfig} {w w' : World}

theorem onNotification_of_event {data : Bytes} {r : Response} (origin : Option Nat)
    (harrived : w.arrived data = some r) (hevent : r.isEvent = true) :
    w.onNotification data origin = (w.received data).dispatchEvent r := by
  unfold World.arrived at harrived
  unfold World.onNotification
  cases hreceived : (w.session.stream.receive data).1 with
  | error e => simp [hreceived] at harrived
  | ok received =>
    cases received with
    | status packet => simp [hreceived] at harrived
    | none => simp [hreceived] at harrived
    | payload payload =>
      cases hresponse : Response.fromBytes payload.data with
      | error e => simp [hreceived, hresponse, Except.toOption] at harrived
      | ok r' =>
        simp only [hreceived, hresponse, Except.toOption, Option.some.injEq] at harrived
        subst harrived
        simp only [hreceived, hresponse, World.takeResponse, hevent, if_true]
        rfl

theorem onNotification_of_malformed {data : Bytes} (origin : Option Nat) (h : w.Malformed data) :
    ∃ e, w.onNotification data origin = (w.received data).drop e := by
  rcases h with ⟨e, hreceived⟩ | ⟨p, e, hreceived, hresponse⟩ | ⟨r, e, harrived, hparse⟩
  · exact ⟨e, by simp only [World.onNotification, hreceived, World.received]⟩
  · exact ⟨e, by simp only [World.onNotification, hreceived, hresponse, World.received]⟩
  · have hevent : r.isEvent = true := by
      by_contra hno
      have hfalse : r.isEvent = false := by simpa using hno
      simp [parseEvent, hfalse] at hparse
    refine ⟨e, ?_⟩
    rw [onNotification_of_event origin harrived hevent, World.dispatchEvent, hparse]

theorem dispatchEvent_calls (r : Response) :
    (w.dispatchEvent r).calls = w.calls ∧ (w.dispatchEvent r).session.pending = w.session.pending := by
  unfold World.dispatchEvent
  split <;> exact ⟨rfl, rfl⟩

theorem mem_heard {listeners : List Listener} {data : Bytes} {place : Nat} {event : LockEvent}
    (h : (place, event) ∈ w.heard listeners data) :
    ∃ r, w.arrived data = some r ∧ parseEvent r = .ok (some event) := by
  simp only [World.heard, List.mem_flatMap, Option.mem_toList, List.mem_map] at h
  obtain ⟨event', hannounced, place', -, heq⟩ := h
  obtain ⟨rfl, rfl⟩ := Prod.mk.inj heq
  obtain ⟨r, harrived, hparse⟩ := Option.bind_eq_some_iff.mp hannounced
  refine ⟨r, harrived, ?_⟩
  cases hevent : parseEvent r with
  | error e => simp [hevent, Except.toOption] at hparse
  | ok event =>
    simp only [hevent, Except.toOption, Option.join_some] at hparse
    rw [hparse]

theorem Flight.safeNotification (hi : Flight config w w.hold) (listeners : List Listener)
    (data : Bytes) (origin : Option Nat) :
    SafeNotification w data (w.onNotification data origin) (w.heard listeners data) := by
  constructor
  · rcases onNotification_cases (w := w) data origin with hq | ⟨w₁, p, r, hq, -, hn⟩
    · exact hq.pending
    · rw [hn]
      exact hq.pending
  · intro k
    rcases onNotification_cases (w := w) data origin with hq | ⟨w₁, p, r, hq, hc, hn⟩
    · exact .inl (congrFun hq.calls k)
    · rw [hn]
      by_cases hk : k = p.call
      · subst hk
        obtain ⟨href, hstatic⟩ := hi.same p hc.pending
        right
        refine ⟨r, p, hc.arrives, hc.pending, rfl, hc.waiting, ?_, hc.notEvent, ?_, ?_⟩
        · simp [World.complete, World.modifyCall]
        · rw [hc.ref, href]
        · rw [hstatic]
          exact hc.id
      · left
        simp [World.complete, World.modifyCall, hk, hq.calls]
  · intro r harrived href
    have hevent : r.isEvent = true := by simp [Response.isEvent, eventCommandRef, href]
    rw [onNotification_of_event origin harrived hevent]
    exact dispatchEvent_calls r
  · exact onNotification_of_malformed origin
  · exact fun place event h => mem_heard h

/-- What a call keeps of a future that is done. -/
structure Kept (k : Nat) (future : Future) (w : World) : Prop where
  issued : k < w.issued
  same : (w.calls k).future = future

theorem Kept.update {k : Nat} {future : Future} (h : Kept k future w) (hissued : w.issued ≤ w'.issued)
    (hcall : (w'.calls k).future = (w.calls k).future) : Kept k future w' :=
  ⟨Nat.lt_of_lt_of_le h.issued hissued, hcall.trans h.same⟩

theorem Kept.modifyCall {k : Nat} {future : Future} (h : Kept k future w) (call : Nat) {f : Call → Call}
    (hf : call = k → (f (w.calls k)).future = (w.calls k).future) :
    Kept k future (w.modifyCall call f) := by
  refine h.update (Nat.le_refl _) ?_
  by_cases hk : k = call
  · subst hk
    simpa [World.modifyCall] using hf rfl
  · simp [World.modifyCall, hk]

theorem Kept.issue {k : Nat} {future : Future} (h : Kept k future w) (commandId : CommandId)
    (refs : CommandRefCounter) : Kept k future (w.issue commandId refs) := by
  have hk : k ≠ w.issued := Nat.ne_of_lt h.issued
  refine h.update (Nat.le_succ _) ?_
  simp [World.issue, hk]

theorem Kept.move {reopens : Prop} {hold hold' : TaskId → Hold} {k : Nat} {future : Future}
    (hm : Move config reopens (w, hold) (w', hold')) (hdone : future.isWaiting = false)
    (h : Kept k future w) : Kept k future w' := by
  have hsame : (w.calls k).future.isWaiting = false := by
    rw [h.same]
    exact hdone
  cases hm with
  | quiet hq => exact h.update (Nat.le_of_eq hq.issued.symm) (by rw [hq.calls])
  | begin commandId ht hs hrefs =>
    exact (h.issue commandId _).update (Nat.le_refl _) rfl
  | @refuse w hold t refs commandId ht hs hrefs =>
    have hk : w.issued ≠ k := fun he => absurd h.issued (by omega)
    exact (h.issue commandId _).modifyCall _ (fun he => absurd he hk)
  | written ht => exact h.modifyCall _ (fun _ => rfl)
  | settle call hf => exact h.modifyCall _ (fun _ => by simp [hsame])
  | @finish w hold t call ending ht =>
    let cleared : World := { w with session := { w.session with
      pending := none, readyAt := w.endReadyAt config call ending } }
    have hc : Kept k future cleared := h.update (Nat.le_refl _) rfl
    have hfinish : call = k → ((cleared.calls k).finish ending w.now).future = (cleared.calls k).future := by
      intro _
      show (if (w.calls k).future.isWaiting then Future.cancelled else (w.calls k).future) = _
      rw [hsame]
      rfl
    exact hc.modifyCall call hfinish
  | connected | take | pause | ready | wake | leave | startReading | gotRevision | stopReading
  | close | stopClosing | tick => exact h.update (Nat.le_refl _) rfl

/-- A future that is done stays as it is, whatever happens next. -/
theorem Kept.step {prim : Primitives} {l : Label} {k : Nat} {future : Future}
    (hs : w.step config prim l = some w') (hdone : future.isWaiting = false)
    (h : Kept k future w) : Kept k future w' := by
  refine step_preserves (I := fun v _ => Kept k future v) (fun hm hv => hv.move hm hdone) ?_ h hs
  intro data origin w₁ p r _ hq hc h₁
  refine h₁.modifyCall _ ?_
  rintro rfl
  have hwaiting := hc.waiting
  rw [← hq.calls, h₁.same] at hwaiting
  rw [hwaiting] at hdone
  exact absurd hdone (by simp [Future.isWaiting])

theorem Kept.run {prim : Primitives} {ls : List Label} {k : Nat} {future : Future}
    (hr : exec (World.step config prim) w ls = some w') (hdone : future.isWaiting = false)
    (h : Kept k future w) : Kept k future w' :=
  exec_invariant (fun _ _ _ hv hs => hv.step hs hdone) h hr

end

/-- Whatever arrives, with hooks that raise nothing but ordinary exceptions:
the call returns, and does no more than a notification may. -/
def HandlesSafely (w : World) : Label → Prop
  | .notify data origin => ∀ tracer listeners, Ordinary tracer listeners →
      ∃ heard, w.handleNotification tracer listeners data origin =
        .ok (w.onNotification data origin, heard) ∧
        SafeNotification w data (w.onNotification data origin) heard
  | _ => True

/-- In every run the notification path never raises, completes a future only
with the answer to the command that waits on it, and never touches a future
that is done. -/
theorem notifications_safe (config : SessionConfig) (prim : Primitives) :
    (∀ ls, Along (World.step config prim) HandlesSafely (.new config) ls) ∧
    ∀ ls ms w w', exec (World.step config prim) (.new config) ls = some w →
      exec (World.step config prim) w ms = some w' →
      ∀ k < w.issued, (w.calls k).future.isWaiting = false →
        (w'.calls k).future = (w.calls k).future := by
  constructor
  · intro ls
    refine Along.of_invariant (I := fun w => Flight config w w.hold)
      (fun _ _ _ hi hs => hi.step hs) ?_ Flight.init
    intro w l hi
    cases l with
    | notify data origin =>
      intro tracer listeners hooks
      exact ⟨_, hooks.handleNotification w data origin, hi.safeNotification listeners data origin⟩
    | connect | send | close | resume | cancel | expire | disconnect | tick => exact trivial
  · intro ls ms w w' _ hms k hk hdone
    have hkept : Kept k (w.calls k).future w := ⟨hk, rfl⟩
    exact (hkept.run hms hdone).same

open CounterRun in
/-- The answer to the key exchange stays in its future after the lock is gone. -/
theorem notifications_safe_keyExchange : ∃ w,
    exec (World.step .scalarOne .scalarOne) (.new .scalarOne) labels = some w ∧
      (w.calls 0).future.isWaiting = false ∧
      ∀ w', exec (World.step .scalarOne .scalarOne) w [.disconnect] = some w' →
        (w'.calls 0).future = (w.calls 0).future := by
  have hend : (exec (World.step .scalarOne .scalarOne) (.new .scalarOne) labels).map
      (fun w => (w.issued, (w.calls 0).future.isWaiting)) = some (2, false) := by decide +kernel
  obtain ⟨w, hw, heq⟩ := Option.map_eq_some_iff.mp hend
  obtain ⟨hissued, hdone⟩ := Prod.mk.inj heq
  have hfirst : 0 < w.issued := by omega
  obtain ⟨-, hkept⟩ := notifications_safe .scalarOne .scalarOne
  exact ⟨w, hw, hdone, fun w' hw' => hkept labels [.disconnect] w w' hw hw' 0 hfirst hdone⟩

end OnestiLock
