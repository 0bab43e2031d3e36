import Mathlib.Data.List.TakeWhile
import OnestiLock.TransportContract

/-! What crosses the transport over bleak: every notification that arrives before
the close is handed on, in order, and every write goes out the one way the
characteristic's properties call for. -/

namespace OnestiLock

namespace Bleak

/-- The values that have arrived. -/
def arrivals (trace : List Effect) : List Bytes :=
  trace.filterMap (fun
    | .arrived data => some data
    | _ => none)

/-- The values the session has been given. -/
def handedOn (trace : List Effect) : List Bytes :=
  trace.filterMap (fun
    | .notified _ data => some data
    | _ => none)

def Effect.isClosing : Effect → Bool
  | .closing _ => true
  | _ => false

def beforeClose (trace : List Effect) : List Effect := trace.takeWhile (fun e => !e.isClosing)

/-- Whether an effect is a write, and with a response. -/
def Effect.response : Effect → Option Bool
  | .writeGattChar _ _ response => some response
  | _ => none

def Effect.isTraffic : Effect → Bool
  | .arrived _ | .notified _ _ | .closing _ => true
  | _ => false

/-- The characteristic, once found, fixes how writes go. -/
def BleakTransport.Found (t : BleakTransport) : Prop :=
  ∀ properties, t.characteristic = some properties → Bleak.writeWithResponse properties = .ok t.writeWithResponse

structure Carries (transport : Option BleakTransport) (trace : List Effect) : Prop where
  handed : handedOn trace = arrivals (beforeClose trace)
  opened : (∀ t, transport = some t → t.closed = false) → ∀ e ∈ trace, e.isClosing = false
  closed : ∀ t, transport = some t → t.closed = true → ∃ e ∈ trace, e.isClosing = true
  found : ∀ t, transport = some t → t.Found
  written : ∀ e ∈ trace, ∀ response, e.response = some response →
    ∃ t properties, transport = some t ∧ t.characteristic = some properties ∧ t.writeWithResponse = response

variable {w w' : World} {t t' : BleakTransport} {trace effects : List Effect} {task : Nat}

theorem beforeClose_append (h : ∀ e ∈ trace, e.isClosing = false) :
    beforeClose (trace ++ effects) = trace ++ beforeClose effects := by
  unfold beforeClose
  rw [List.takeWhile_append_of_pos]
  simpa using h

theorem beforeClose_open (h : ∀ e ∈ trace, e.isClosing = false) : beforeClose trace = trace := by
  rw [beforeClose, List.takeWhile_eq_self_iff]
  simpa using h

theorem beforeClose_closed (h : ∃ e ∈ trace, e.isClosing = true) :
    beforeClose (trace ++ effects) = beforeClose trace := by
  unfold beforeClose
  induction trace with
  | nil => simp at h
  | cons e trace ih =>
    by_cases he : e.isClosing = true
    · simp [he]
    · have hrest : ∃ e ∈ trace, e.isClosing = true := by simpa [he] using h
      simp only [List.cons_append, List.takeWhile_cons, ih hrest]

theorem arrivals_append : arrivals (trace ++ effects) = arrivals trace ++ arrivals effects := by
  simp [arrivals]

theorem handedOn_append : handedOn (trace ++ effects) = handedOn trace ++ handedOn effects := by
  simp [handedOn]

/-- Effects that neither carry a value in nor close. -/
theorem no_traffic (h : ∀ e ∈ effects, e.isTraffic = false) :
    arrivals effects = [] ∧ handedOn effects = [] ∧ ∀ e ∈ effects, e.isClosing = false := by
  refine ⟨?_, ?_, ?_⟩
  · apply List.filterMap_eq_nil_iff.mpr
    intro e he
    have := h e he
    cases e <;> simp_all [Effect.isTraffic]
  · apply List.filterMap_eq_nil_iff.mpr
    intro e he
    have := h e he
    cases e <;> simp_all [Effect.isTraffic]
  · intro e he
    have := h e he
    cases e <;> simp_all [Effect.isTraffic, Effect.isClosing]

theorem arrivals_beforeClose (h : ∀ e ∈ effects, e.isTraffic = false) :
    arrivals (beforeClose (trace ++ effects)) = arrivals (beforeClose trace) := by
  by_cases hclosed : ∃ e ∈ trace, e.isClosing = true
  · rw [beforeClose_closed hclosed]
  · have hopen : ∀ e ∈ trace, e.isClosing = false := by simpa using hclosed
    have hwhole := beforeClose_open hopen
    rw [beforeClose_append hopen, arrivals_append, hwhole]
    have hnone : arrivals (beforeClose effects) = [] :=
      (no_traffic (fun e he => h e ((List.takeWhile_sublist _).subset he))).1
    rw [hnone, List.append_nil]

/-- A step that neither takes a value in nor closes. -/
theorem Carries.plain (h : Carries (some t) trace) (hclosed : t'.closed = t.closed)
    (hkept : ∀ properties, t.characteristic = some properties →
      t'.characteristic = some properties ∧ t'.writeWithResponse = t.writeWithResponse)
    (hfound : t'.Found) (hplain : ∀ e ∈ effects, e.isTraffic = false)
    (hwrites : ∀ e ∈ effects, ∀ response, e.response = some response →
      t'.characteristic.isSome = true ∧ t'.writeWithResponse = response) :
    Carries (some t') (trace ++ effects) := by
  obtain ⟨-, hhanded, hclosing⟩ := no_traffic hplain
  constructor
  · rw [handedOn_append, hhanded, List.append_nil, arrivals_beforeClose hplain]
    exact h.handed
  · intro hopen e he
    rcases List.mem_append.mp he with he | he
    · refine h.opened ?_ e he
      rintro r ⟨⟩
      rw [← hclosed]
      exact hopen t' rfl
    · exact hclosing e he
  · rintro r ⟨⟩ hr
    obtain ⟨e, he, hc⟩ := h.closed t rfl (hclosed ▸ hr)
    exact ⟨e, List.mem_append_left _ he, hc⟩
  · rintro r ⟨⟩
    exact hfound
  · intro e he response hresponse
    rcases List.mem_append.mp he with he | he
    · obtain ⟨r, properties, ⟨⟩, hproperties, hr⟩ := h.written e he response hresponse
      obtain ⟨hsame, hflag⟩ := hkept properties hproperties
      exact ⟨t', properties, rfl, hsame, hflag.trans hr⟩
    · obtain ⟨hsome, hflag⟩ := hwrites e he response hresponse
      obtain ⟨properties, hproperties⟩ := Option.isSome_iff_exists.mp hsome
      exact ⟨t', properties, rfl, hproperties, hflag⟩

theorem Carries.closing (h : Carries (some t) trace) (hopen : t.closed = false)
    (hplain : ∀ e ∈ effects, e.isTraffic = false ∧ e.response = none) :
    Carries (some { t with closed := true }) (trace ++ .closing task :: effects) := by
  have htrace : ∀ e ∈ trace, e.isClosing = false := h.opened (by rintro r ⟨⟩; exact hopen)
  have hwhole := beforeClose_open htrace
  obtain ⟨-, hhanded, -⟩ := no_traffic (fun e he => (hplain e he).1)
  constructor
  · rw [handedOn_append, beforeClose_append htrace, arrivals_append]
    have hhead : handedOn (.closing task :: effects) = [] := hhanded
    have hheard : handedOn trace = arrivals trace := by rw [h.handed, hwhole]
    rw [hhead, hheard]
    rfl
  · intro hclosed
    exact absurd (hclosed _ rfl) (by simp)
  · intro r _ _
    exact ⟨.closing task, by simp, rfl⟩
  · rintro r ⟨⟩
    exact h.found t rfl
  · intro e he response hresponse
    rcases List.mem_append.mp he with he | he
    · obtain ⟨r, properties, ⟨⟩, hproperties, hr⟩ := h.written e he response hresponse
      exact ⟨_, properties, rfl, hproperties, hr⟩
    · rcases List.mem_cons.mp he with rfl | he
      · cases hresponse
      · rw [(hplain e he).2] at hresponse
        cases hresponse

/-- A value that arrives. -/
theorem Carries.receive (h : Carries (some t) trace) (callback : Nat) (data : Bytes) :
    Carries (some t) (trace ++ .arrived data :: if t.closed then [] else [.notified callback data]) := by
  constructor
  · cases hclosed : t.closed with
    | true =>
      rw [beforeClose_closed (h.closed t rfl hclosed), handedOn_append, h.handed]
      exact List.append_nil _
    | false =>
      have htrace : ∀ e ∈ trace, e.isClosing = false := h.opened (by rintro r ⟨⟩; exact hclosed)
      have hwhole := beforeClose_open htrace
      rw [beforeClose_append htrace, handedOn_append, arrivals_append, h.handed, hwhole]
      rfl
  · intro hopen e he
    rcases List.mem_append.mp he with he | he
    · exact h.opened hopen e he
    · rcases List.mem_cons.mp he with rfl | he
      · rfl
      · split at he
        · cases he
        · rw [List.mem_singleton.mp he]
          rfl
  · intro r hr hclosed
    obtain ⟨e, he, hc⟩ := h.closed r hr hclosed
    exact ⟨e, List.mem_append_left _ he, hc⟩
  · exact h.found
  · intro e he response hresponse
    rcases List.mem_append.mp he with he | he
    · exact h.written e he response hresponse
    · rcases List.mem_cons.mp he with rfl | he
      · cases hresponse
      · split at he
        · cases he
        · rw [List.mem_singleton.mp he] at hresponse
          cases hresponse

def World.Carries (w : World) : Prop := Bleak.Carries w.transport w.trace

/-- A step of a coroutine that says nothing, the transport as it was. -/
theorem World.Carries.says (h : w.Carries) (ht : w.transport = some t) (a : Await) {effects : List Effect}
    (hplain : ∀ e ∈ effects, e.isTraffic = false ∧ e.response = none) :
    ((w.await task a).emit effects).Carries := by
  have hsame : Bleak.Carries (some t) w.trace := ht ▸ h
  show Bleak.Carries w.transport (w.trace ++ effects)
  rw [ht]
  refine hsame.plain rfl (fun _ hp => ⟨hp, rfl⟩) (hsame.found t rfl) (fun e he => (hplain e he).1) ?_
  intro e he response hresponse
  rw [(hplain e he).2] at hresponse
  cases hresponse

theorem World.Carries.raise (h : w.Carries) (ht : w.transport = some t) (failure : Failure) :
    (w.raise task failure).Carries :=
  h.says ht .idle (by simp [Effect.isTraffic, Effect.response])

theorem World.Carries.finish (h : w.Carries) (ht : w.transport = some t) (value : Bytes) :
    (w.finish task value).Carries :=
  h.says ht .idle (by simp [Effect.isTraffic, Effect.response])

theorem World.Carries.fail (h : w.Carries) (ht : w.transport = some t) (timeout action : String)
    (ended : GattEnd) : (w.fail t task timeout action ended).Carries := by
  cases ended with
  | returned value => exact h.finish ht value
  | timeoutError => exact h.raise ht _
  | bleakError description => exact h.raise ht _
  | other e => exact h.raise ht _

theorem communicationCharacteristic_found {services : Services} (hfound : t.Found)
    (h : t.communicationCharacteristic services = .ok t') :
    t'.Found ∧ t'.characteristic.isSome = true ∧ ∀ properties, t.characteristic = some properties → t' = t := by
  unfold BleakTransport.communicationCharacteristic at h
  split at h
  case h_1 properties hknown =>
    cases h
    exact ⟨hfound, by simp [hknown], fun _ _ => rfl⟩
  case h_2 hunknown =>
    split at h
    · cases h
    · cases h
    · obtain ⟨response, hresponse, h⟩ := bind_eq_ok.mp h
      cases h
      refine ⟨?_, rfl, ?_⟩
      · rintro r ⟨⟩
        exact hresponse
      · intro properties hp
        rw [hunknown] at hp
        cases hp

/-- A call that needs the characteristic, with what it leaves of the transport. -/
theorem World.Carries.requests (h : w.Carries) (ht : w.transport = some t) {services : Services}
    (hfound : t.communicationCharacteristic services = .ok t') {r : BleakTransport}
    (hr : r.characteristic = t'.characteristic ∧ r.writeWithResponse = t'.writeWithResponse ∧ r.closed = t'.closed)
    (task : Nat) (a : Await) {e : Effect} (hplain : e.isTraffic = false)
    (hwrites : ∀ response, e.response = some response → t'.writeWithResponse = response) :
    (w.moved r task a [e]).Carries := by
  have hsame : Bleak.Carries (some t) w.trace := ht ▸ h
  obtain ⟨hfound', hsome, hold⟩ := communicationCharacteristic_found (hsame.found t rfl) hfound
  obtain ⟨hclosed, -⟩ := communicationCharacteristic_kept hfound
  show Bleak.Carries (some r) (w.trace ++ [e])
  refine hsame.plain (hr.2.2.trans hclosed) ?_ ?_ (by simpa using hplain) ?_
  · intro properties hp
    rw [hr.1, hr.2.1, hold properties hp]
    exact ⟨hp, rfl⟩
  · intro properties hp
    rw [hr.2.1]
    exact hfound' properties (hr.1 ▸ hp)
  · intro e' he response hresponse
    rw [List.mem_singleton.mp he] at hresponse
    rw [hr.1, hr.2.1]
    exact ⟨hsome, hwrites response hresponse⟩

theorem World.Carries.close (h : w.Carries) (ht : w.transport = some t) : (w.close t task).Carries := by
  have hsame : Bleak.Carries (some t) w.trace := ht ▸ h
  unfold World.close
  cases hclosed : t.closed with
  | true => exact h.finish ht []
  | false =>
    have hcloses : ∀ (a : Await) (e : Effect), e.isTraffic = false ∧ e.response = none →
        ((((w.setTransport { t with closed := true }).emit [.closing task]).await task a).emit [e]).Carries := by
      intro a e he
      show Bleak.Carries (some { t with closed := true }) ((w.trace ++ [.closing task]) ++ [e])
      rw [List.append_assoc]
      exact hsame.closing hclosed (by simpa using he)
    simp only [Bool.false_eq_true, if_false]
    split
    · exact hcloses .idle _ ⟨rfl, rfl⟩
    · split
      · exact hcloses .stoppingNotify _ ⟨rfl, rfl⟩
      · exact hcloses .disconnecting _ ⟨rfl, rfl⟩

theorem World.Carries.resume (h : w.Carries) (ht : w.transport = some t) {ended : GattEnd}
    (hs : w.resume t task ended = some w') : w'.Carries := by
  have hdisconnects : ((w.await task .disconnecting).emit [.disconnect task]).Carries :=
    h.says ht .disconnecting (by simp [Effect.isTraffic, Effect.response])
  unfold World.resume at hs
  cases hcall : w.calls task with
  | idle => simp [hcall] at hs
  | readingRevision =>
    simp only [hcall, Option.some.injEq] at hs
    exact hs ▸ h.fail ht _ _ _
  | subscribing =>
    simp only [hcall] at hs
    cases ended with
    | returned value =>
      cases hs
      have hsame : Bleak.Carries (some t) w.trace := ht ▸ h
      show Bleak.Carries (some { t with subscribed := true }) (w.trace ++ [.returned task []])
      exact hsame.plain rfl (fun _ hp => ⟨hp, rfl⟩) (hsame.found t rfl) (by simp [Effect.isTraffic])
        (by simp [Effect.response])
    | timeoutError => cases hs; exact h.fail ht _ _ _
    | bleakError description => cases hs; exact h.fail ht _ _ _
    | other e => cases hs; exact h.fail ht _ _ _
  | writing =>
    simp only [hcall] at hs
    cases ended with
    | returned value => cases hs; exact h.finish ht []
    | timeoutError => cases hs; exact h.fail ht _ _ _
    | bleakError description => cases hs; exact h.fail ht _ _ _
    | other e => cases hs; exact h.fail ht _ _ _
  | stoppingNotify =>
    simp only [hcall] at hs
    cases ended with
    | other e => cases hs; exact h.raise ht _
    | returned value => cases hs; exact hdisconnects
    | timeoutError => cases hs; exact hdisconnects
    | bleakError description => cases hs; exact hdisconnects
  | disconnecting =>
    simp only [hcall] at hs
    cases ended with
    | other e => cases hs; exact h.raise ht _
    | returned value => cases hs; exact h.finish ht []
    | timeoutError => cases hs; exact h.finish ht []
    | bleakError description => cases hs; exact h.finish ht []

theorem World.Carries.build (h : w.Carries) (hnone : w.transport = none) : w.build.Carries := by
  have hsame : Bleak.Carries none w.trace := hnone ▸ h
  have hopen : ∀ e ∈ w.trace, e.isClosing = false := hsame.opened (by simp)
  have hunwritten : ∀ e ∈ w.trace, ∀ response, e.response ≠ some response := by
    intro e he response hresponse
    obtain ⟨t, -, ht, -⟩ := hsame.written e he response hresponse
    cases ht
  unfold World.build
  split
  · constructor
    · exact hsame.handed
    · exact fun _ => hopen
    · rintro r ⟨⟩ hr
      cases hr
    · rintro r ⟨⟩ properties hp
      cases hp
    · intro e he response hresponse
      exact absurd hresponse (hunwritten e he response)
  · constructor
    · show handedOn (w.trace ++ [_]) = arrivals (beforeClose (w.trace ++ [_]))
      rw [handedOn_append, arrivals_beforeClose (by simp [Effect.isTraffic])]
      exact (List.append_nil _).trans hsame.handed
    · intro _ e he
      rcases List.mem_append.mp he with he | he
      · exact hopen e he
      · rw [List.mem_singleton.mp he]
        rfl
    · intro r hr
      exact absurd (hnone.symm.trans hr) (by simp)
    · intro r hr
      exact absurd (hnone.symm.trans hr) (by simp)
    · intro e he response hresponse
      rcases List.mem_append.mp he with he | he
      · exact absurd hresponse (hunwritten e he response)
      · rw [List.mem_singleton.mp he] at hresponse
        cases hresponse

theorem World.Carries.clientDisconnected (h : w.Carries) (ht : w.transport = some t) :
    (w.clientDisconnected t).Carries := by
  have hsame : Bleak.Carries (some t) w.trace := ht ▸ h
  unfold World.clientDisconnected
  split
  · exact h
  · have hdropped : Bleak.Carries (some { t with linkLost := true }) (w.trace ++ [.dropped]) :=
      hsame.plain rfl (fun _ hp => ⟨hp, rfl⟩) (hsame.found t rfl) (by simp [Effect.isTraffic])
        (by simp [Effect.response])
    split
    · exact hdropped.plain rfl (fun _ hp => ⟨hp, rfl⟩) (hdropped.found _ rfl) (by simp [Effect.isTraffic])
        (by simp [Effect.response])
    · exact hdropped

theorem step_carries {l : Label} (h : w.Carries) (hs : step w l = some w') : w'.Carries := by
  cases l with
  | build =>
    simp only [step] at hs
    split at hs
    case isTrue hnone =>
      cases hs
      exact h.build (by simpa using hnone)
    case isFalse => cases hs
  | readSoftwareRevision task =>
    obtain ⟨t, ht, rfl⟩ := World.begin_eq_some hs
    unfold World.readSoftwareRevision
    split
    · exact h.raise ht _
    · exact h.says ht _ (by simp [Effect.isTraffic, Effect.response])
  | startNotify task callbacks services =>
    obtain ⟨t, ht, rfl⟩ := World.begin_eq_some hs
    unfold World.startNotify
    cases hbegin : t.checkOpen >>= fun _ => t.communicationCharacteristic services with
    | error e => exact h.raise ht _
    | ok r =>
      exact h.requests (e := .startNotify task) ht (checked_of_bind hbegin).2
        (r := { r with onNotification := some callbacks, onDisconnect := some callbacks }) ⟨rfl, rfl, rfl⟩ task
        .subscribing rfl (fun _ he => by cases he)
  | write task data services =>
    obtain ⟨t, ht, rfl⟩ := World.begin_eq_some hs
    unfold World.write
    cases hbegin : t.checkOpen >>= fun _ => t.communicationCharacteristic services with
    | error e => exact h.raise ht _
    | ok r =>
      exact h.requests ht (checked_of_bind hbegin).2 ⟨rfl, rfl, rfl⟩ task .writing rfl (fun _ he => Option.some.inj he)
  | close task =>
    obtain ⟨t, ht, rfl⟩ := World.begin_eq_some hs
    exact h.close ht
  | ended task ended =>
    obtain ⟨t, ht, hs⟩ := Option.bind_eq_some_iff.mp hs
    exact h.resume ht hs
  | received data =>
    obtain ⟨t, ht, hs⟩ := Option.bind_eq_some_iff.mp hs
    split at hs
    case isTrue hlistens =>
      cases hs
      obtain ⟨callback, hcallback⟩ := Option.isSome_iff_exists.mp hlistens
      have hsame : Bleak.Carries (some t) w.trace := ht ▸ h
      have hreceived := hsame.receive callback data
      unfold World.receive
      rw [hcallback]
      cases hclosed : t.closed <;>
        simpa [hclosed, World.Carries, World.emit, ht] using hreceived
    case isFalse => cases hs
  | linkDropped => exact Option.some.inj hs ▸ h
  | clientDisconnected =>
    cases hs
    cases ht : w.transport with
    | none =>
      have hsame : Bleak.Carries w.transport w.trace := h
      simpa [ht, World.Carries] using hsame
    | some t =>
      have hdropped : World.Carries { w with connected := false } := h
      simpa [ht] using hdropped.clientDisconnected (t := t) ht

theorem start_carries : World.start.Carries where
  handed := rfl
  opened := by simp [World.start]
  closed := by simp [World.start]
  found := by simp [World.start]
  written := by simp [World.start]

/-- In every interleaving the session is given exactly the values that arrive
before the close takes effect, in order, and its writes all go one way, with a
response or without, as the properties of the one characteristic call for. -/
theorem exec_carries {ls : List Label} (h : exec .start ls = some w) :
    handedOn w.trace = arrivals (beforeClose w.trace) ∧
      ∀ task data response, .writeGattChar task data response ∈ w.trace →
        ∃ t properties, w.transport = some t ∧ t.characteristic = some properties ∧
          writeWithResponse properties = .ok response := by
  have hcarries : Carries w.transport w.trace :=
    Transition.exec_invariant (I := World.Carries) (fun _ _ _ => step_carries) start_carries h
  refine ⟨hcarries.handed, ?_⟩
  intro task data response hmem
  obtain ⟨t, properties, ht, hproperties, hresponse⟩ := hcarries.written _ hmem response rfl
  refine ⟨t, properties, ht, hproperties, ?_⟩
  rw [← hresponse]
  exact hcarries.found t ht properties hproperties

theorem exec_carries_closeRun :
    handedOn closed.trace = [[1]] ∧
      ∃ t properties, closed.transport = some t ∧ t.characteristic = some properties ∧
        writeWithResponse properties = .ok false := by
  have hcarries := exec_carries exec_closeRun
  refine ⟨hcarries.1.trans rfl, hcarries.2 1 [7] false (by decide)⟩

end Bleak

end OnestiLock
