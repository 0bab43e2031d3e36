import OnestiLock.BleakTransport

/-! What a session is promised of its transport (`ble/client/transport.py`), as an
acceptor of effects, and that the transport over bleak keeps it in every
interleaving of its callers, the client and the link. -/

namespace OnestiLock

namespace Bleak

/-- The promise so far: whether the transport is closed, whether the link is lost
and the session told, and how far the close has come. -/
structure Promise where
  closed : Bool
  lost : Bool
  told : Bool
  stopped : Bool
  released : Bool
  deriving DecidableEq, Repr

namespace Promise

def start : Promise := ⟨false, false, false, false, false⟩

/-- An effect that breaks the promise is not accepted. -/
def next (p : Promise) : Effect → Option Promise
  | .readGattChar _ | .startNotify _ | .writeGattChar _ _ _ => if p.closed || p.lost then none else some p
  | .notified _ _ => if p.closed then none else some p
  | .dropped => if p.closed || p.lost then none else some { p with lost := true }
  | .disconnected _ => if p.closed || !p.lost || p.told then none else some { p with told := true }
  | .closing _ => if p.closed then none else some { p with closed := true }
  | .stopNotify _ => if !p.closed || p.stopped || p.released then none else some { p with stopped := true }
  | .disconnect _ => if !p.closed || p.released then none else some { p with released := true }
  | .refused _ | .arrived _ | .returned _ _ | .raised _ _ => some p

end Promise

abbrev accepts := Transition.exec Promise.next

/-- The promise kept up to now, and what the flags and the waiting calls say of it. -/
structure Keeps (w : World) (p : Promise) : Prop where
  trace : accepts .start w.trace = some p
  unbuilt : w.transport = none → p = .start ∧ ∀ task, w.calls task = .idle
  closed : ∀ t, w.transport = some t → p.closed = t.closed
  lost : ∀ t, w.transport = some t → p.lost = t.linkLost
  told : p.told = true → p.lost = true
  opened : p.closed = false → p.stopped = false ∧ p.released = false ∧
    ∀ task, w.calls task ≠ .stoppingNotify ∧ w.calls task ≠ .disconnecting
  stopping : ∀ task, w.calls task = .stoppingNotify → p.stopped = true ∧ p.released = false
  one : ∀ task other, w.calls task = .stoppingNotify → w.calls other = .stoppingNotify → task = other

variable {w w' : World} {p p' : Promise} {t t' : BleakTransport} {task : Nat}

theorem World.calls_await (w : World) (task other : Nat) (a : Await) :
    (w.await task a).calls other = if other = task then a else w.calls other := by
  simp only [World.await, Function.update_apply]

/-- A step of one coroutine, with the effects it has. -/
def World.moved (w : World) (t : BleakTransport) (task : Nat) (a : Await) (effects : List Effect) : World :=
  ((w.setTransport t).await task a).emit effects

theorem accepts_append {ps qs : List Effect} (h : accepts p ps = some p') {q : Promise}
    (hq : accepts p' qs = some q) : accepts p (ps ++ qs) = some q :=
  Transition.exec_append.mpr ⟨p', h, hq⟩

/-- A coroutine that goes on under the same promise. -/
theorem Keeps.still (h : Keeps w p) (ht : w.transport = some t) (t' : BleakTransport) (task : Nat) (a : Await)
    (effects : List Effect) (heffects : accepts p effects = some p) (hclosed : t'.closed = t.closed)
    (hlost : t'.linkLost = t.linkLost) (hstop : a ≠ .stoppingNotify) (hdisc : a ≠ .disconnecting) :
    Keeps (w.moved t' task a effects) p where
  trace := accepts_append h.trace heffects
  unbuilt := by simp [World.moved, World.setTransport, World.await, World.emit]
  closed := by
    intro r hr
    cases hr
    rw [hclosed]
    exact h.closed t ht
  lost := by
    intro r hr
    cases hr
    rw [hlost]
    exact h.lost t ht
  told := h.told
  opened := by
    intro hopen
    obtain ⟨hs, hr, hcalls⟩ := h.opened hopen
    refine ⟨hs, hr, ?_⟩
    intro other
    show (World.await _ task a).calls other ≠ _ ∧ (World.await _ task a).calls other ≠ _
    rw [World.calls_await]
    split
    · exact ⟨hstop, hdisc⟩
    · exact hcalls other
  stopping := by
    intro other hother
    change (World.await _ task a).calls other = _ at hother
    rw [World.calls_await] at hother
    split at hother
    · exact absurd hother hstop
    · exact h.stopping other hother
  one := by
    intro x y hx hy
    change (World.await _ task a).calls x = _ at hx
    change (World.await _ task a).calls y = _ at hy
    rw [World.calls_await] at hx hy
    split at hx
    · exact absurd hx hstop
    · split at hy
      · exact absurd hy hstop
      · exact h.one x y hx hy

/-- The close that takes effect, and where it leaves its coroutine. -/
theorem Keeps.closing (h : Keeps w p) (ht : w.transport = some t) (hopen : t.closed = false) (task : Nat)
    (a : Await) (effects : List Effect) (p' : Promise) (heffects : accepts { p with closed := true } effects = some p')
    (hkept : p'.closed = true ∧ p'.lost = p.lost ∧ p'.told = p.told)
    (hstop : a = .stoppingNotify → p'.stopped = true ∧ p'.released = false) :
    Keeps (w.moved { t with closed := true } task a (.closing task :: effects)) p' := by
  have hpopen : p.closed = false := (h.closed t ht).trans hopen
  have hnone := (h.opened hpopen).2.2
  have hother : ∀ other, (World.await w task a).calls other = .stoppingNotify →
      other = task ∧ a = .stoppingNotify := by
    intro other hother
    rw [World.calls_await] at hother
    split at hother
    case isTrue he => exact ⟨he, hother⟩
    case isFalse => exact absurd hother (hnone other).1
  constructor
  · refine accepts_append h.trace ?_
    show (Promise.next p (.closing task)).bind _ = some p'
    simp only [Promise.next, hpopen]
    exact heffects
  · simp [World.moved, World.setTransport, World.await, World.emit]
  · intro r hr
    cases hr
    exact hkept.1
  · intro r hr
    cases hr
    rw [hkept.2.1]
    exact h.lost t ht
  · rw [hkept.2.1, hkept.2.2]
    exact h.told
  · intro hclosed
    rw [hkept.1] at hclosed
    cases hclosed
  · intro other ho
    exact hstop (hother other ho).2
  · intro x y hx hy
    exact (hother x hx).1.trans (hother y hy).1.symm

/-- After the notifications are stopped, or the client has failed to, it is disconnected. -/
theorem Keeps.disconnecting (h : Keeps w p) (ht : w.transport = some t) (hcall : w.calls task = .stoppingNotify) :
    Keeps (w.moved t task .disconnecting [.disconnect task]) { p with released := true } := by
  obtain ⟨hstopped, hreleased⟩ := h.stopping task hcall
  have hclosed : p.closed = true := by
    by_contra hopen
    exact ((h.opened (by simpa using hopen)).2.2 task).1 hcall
  have hgone : ∀ other, (World.await w task .disconnecting).calls other ≠ .stoppingNotify := by
    intro other hother
    rw [World.calls_await] at hother
    split at hother
    case isTrue => cases hother
    case isFalse hne => exact hne (h.one other task hother hcall)
  constructor
  · refine accepts_append h.trace ?_
    show (Promise.next p (.disconnect task)).bind _ = _
    simp only [Promise.next, hclosed, hreleased]
    rfl
  · simp [World.moved, World.setTransport, World.await, World.emit]
  · intro r hr
    cases hr
    exact h.closed t ht
  · intro r hr
    cases hr
    exact h.lost t ht
  · exact h.told
  · intro hopen
    exact absurd (hclosed.symm.trans hopen) (by decide)
  · intro other hother
    exact absurd hother (hgone other)
  · intro x y hx
    exact absurd hx (hgone x)

theorem World.setTransport_self (ht : w.transport = some t) : w.setTransport t = w := by
  cases w
  cases ht
  rfl

theorem Keeps.raise (h : Keeps w p) (ht : w.transport = some t) (failure : Failure) :
    Keeps (w.raise task failure) p := by
  have hmoved := h.still ht t task .idle [.raised task failure] rfl rfl rfl (by decide) (by decide)
  rw [World.moved, World.setTransport_self ht] at hmoved
  exact hmoved

theorem Keeps.finish (h : Keeps w p) (ht : w.transport = some t) (value : Bytes) :
    Keeps (w.finish task value) p := by
  have hmoved := h.still ht t task .idle [.returned task value] rfl rfl rfl (by decide) (by decide)
  rw [World.moved, World.setTransport_self ht] at hmoved
  exact hmoved

theorem Keeps.fail (h : Keeps w p) (ht : w.transport = some t) (timeout action : String) (ended : GattEnd) :
    Keeps (w.fail t task timeout action ended) p := by
  cases ended with
  | returned value => exact h.finish ht value
  | timeoutError => exact h.raise ht _
  | bleakError description => exact h.raise ht _
  | other e => exact h.raise ht _

/-- A transport that passes its check is open in the promise too. -/
theorem Keeps.checked (h : Keeps w p) (ht : w.transport = some t) (hcheck : t.checkOpen = .ok ()) :
    p.closed = false ∧ p.lost = false := by
  rw [h.closed t ht, h.lost t ht]
  unfold BleakTransport.checkOpen at hcheck
  cases hc : t.closed <;> cases hl : t.linkLost <;> simp_all

theorem communicationCharacteristic_kept {services : Services} (h : t.communicationCharacteristic services = .ok t') :
    t'.closed = t.closed ∧ t'.linkLost = t.linkLost := by
  unfold BleakTransport.communicationCharacteristic at h
  split at h
  · cases h
    exact ⟨rfl, rfl⟩
  · split at h
    · cases h
    · cases h
    · obtain ⟨response, -, h⟩ := bind_eq_ok.mp h
      cases h
      exact ⟨rfl, rfl⟩

theorem Keeps.emit (h : Keeps w p) {effects : List Effect} (heffects : accepts p effects = some p) :
    Keeps (w.emit effects) p where
  trace := accepts_append h.trace heffects
  unbuilt := h.unbuilt
  closed := h.closed
  lost := h.lost
  told := h.told
  opened := h.opened
  stopping := h.stopping
  one := h.one

theorem Keeps.build (h : Keeps w p) (hnone : w.transport = none) : Keeps w.build p := by
  obtain ⟨hstart, hidle⟩ := h.unbuilt hnone
  unfold World.build
  split
  · subst hstart
    constructor
    · exact h.trace
    · simp [World.setTransport]
    · rintro t ⟨⟩
      rfl
    · rintro t ⟨⟩
      rfl
    · exact h.told
    · exact h.opened
    · exact h.stopping
    · exact h.one
  · exact h.emit rfl

theorem Keeps.readSoftwareRevision (h : Keeps w p) (ht : w.transport = some t) :
    Keeps (w.readSoftwareRevision t task) p := by
  unfold World.readSoftwareRevision
  cases hcheck : t.checkOpen with
  | error e => exact h.raise ht _
  | ok u =>
    obtain ⟨hclosed, hlost⟩ := h.checked ht hcheck
    have hmoved := h.still ht t task .readingRevision [.readGattChar task]
      (by simp [Transition.exec, Promise.next, hclosed, hlost]) rfl rfl (by decide) (by decide)
    rw [World.moved, World.setTransport_self ht] at hmoved
    exact hmoved

theorem checked_of_bind {services : Services}
    (h : (t.checkOpen >>= fun _ => t.communicationCharacteristic services) = .ok t') :
    t.checkOpen = .ok () ∧ t.communicationCharacteristic services = .ok t' := by
  obtain ⟨⟨⟩, hcheck, hfound⟩ := bind_eq_ok.mp h
  exact ⟨hcheck, hfound⟩

theorem Keeps.startNotify (h : Keeps w p) (ht : w.transport = some t) (callbacks : Nat) (services : Services) :
    Keeps (w.startNotify t task callbacks services) p := by
  unfold World.startNotify
  cases hbegin : t.checkOpen >>= fun _ => t.communicationCharacteristic services with
  | error e => exact h.raise ht _
  | ok r =>
    obtain ⟨hcheck, hfound⟩ := checked_of_bind hbegin
    obtain ⟨hclosed, hlost⟩ := h.checked ht hcheck
    obtain ⟨hkept, hkept'⟩ := communicationCharacteristic_kept hfound
    exact h.still ht _ task _ _ (by simp [Transition.exec, Promise.next, hclosed, hlost]) hkept hkept' (by decide)
      (by decide)

theorem Keeps.write (h : Keeps w p) (ht : w.transport = some t) (data : Bytes) (services : Services) :
    Keeps (w.write t task data services) p := by
  unfold World.write
  cases hbegin : t.checkOpen >>= fun _ => t.communicationCharacteristic services with
  | error e => exact h.raise ht _
  | ok r =>
    obtain ⟨hcheck, hfound⟩ := checked_of_bind hbegin
    obtain ⟨hclosed, hlost⟩ := h.checked ht hcheck
    obtain ⟨hkept, hkept'⟩ := communicationCharacteristic_kept hfound
    exact h.still ht _ task _ _ (by simp [Transition.exec, Promise.next, hclosed, hlost]) hkept hkept' (by decide)
      (by decide)

theorem Keeps.close (h : Keeps w p) (ht : w.transport = some t) : ∃ p', Keeps (w.close t task) p' := by
  unfold World.close
  cases hclosed : t.closed with
  | true => exact ⟨p, h.finish ht []⟩
  | false =>
    have hpopen : p.closed = false := (h.closed t ht).trans hclosed
    obtain ⟨hstopped, hreleased, -⟩ := h.opened hpopen
    have hemit : ∀ (a : Await) (effects : List Effect),
        ((((w.setTransport { t with closed := true }).emit [.closing task]).await task a).emit effects) =
          w.moved { t with closed := true } task a (.closing task :: effects) := by
      intro a effects
      simp [World.moved, World.emit, World.await, World.setTransport]
    cases hconnected : w.connected with
    | false =>
      refine ⟨{ p with closed := true }, ?_⟩
      have hmoved := h.closing ht hclosed task .idle [.returned task []] { p with closed := true } rfl ⟨rfl, rfl, rfl⟩ (by simp)
      rw [← hemit] at hmoved
      simpa [hconnected, World.setTransport, World.emit, World.finish] using hmoved
    | true =>
      by_cases hsubscribed : (t.subscribed && t.characteristic.isSome) = true
      · refine ⟨{ p with closed := true, stopped := true }, ?_⟩
        have hmoved := h.closing ht hclosed task .stoppingNotify [.stopNotify task]
          { p with closed := true, stopped := true }
          (by simp [Transition.exec, Promise.next, hstopped, hreleased]) ⟨rfl, rfl, rfl⟩
          (fun _ => ⟨rfl, hreleased⟩)
        rw [← hemit] at hmoved
        simpa [hconnected, World.setTransport, World.emit, hsubscribed] using hmoved
      · refine ⟨{ p with closed := true, released := true }, ?_⟩
        have hmoved := h.closing ht hclosed task .disconnecting [.disconnect task]
          { p with closed := true, released := true }
          (by simp [Transition.exec, Promise.next, hreleased]) ⟨rfl, rfl, rfl⟩ (by simp)
        rw [← hemit] at hmoved
        simpa [hconnected, World.setTransport, World.emit, hsubscribed] using hmoved

theorem Keeps.resume (h : Keeps w p) (ht : w.transport = some t) {ended : GattEnd}
    (hs : w.resume t task ended = some w') : ∃ p', Keeps w' p' := by
  have hdisconnects (hcall : w.calls task = .stoppingNotify) :
      Keeps ((w.await task .disconnecting).emit [.disconnect task]) { p with released := true } := by
    have hmoved := h.disconnecting ht hcall
    rw [World.moved, World.setTransport_self ht] at hmoved
    exact hmoved
  unfold World.resume at hs
  cases hcall : w.calls task with
  | idle => simp [hcall] at hs
  | readingRevision =>
    simp only [hcall, Option.some.injEq] at hs
    exact ⟨p, hs ▸ h.fail ht _ _ _⟩
  | subscribing =>
    simp only [hcall] at hs
    cases ended with
    | returned value =>
      cases hs
      exact ⟨p, h.still ht _ task .idle [.returned task []] rfl rfl rfl (by decide) (by decide)⟩
    | timeoutError => cases hs; exact ⟨p, h.fail ht _ _ _⟩
    | bleakError description => cases hs; exact ⟨p, h.fail ht _ _ _⟩
    | other e => cases hs; exact ⟨p, h.fail ht _ _ _⟩
  | writing =>
    simp only [hcall] at hs
    cases ended with
    | returned value => cases hs; exact ⟨p, h.finish ht []⟩
    | timeoutError => cases hs; exact ⟨p, h.fail ht _ _ _⟩
    | bleakError description => cases hs; exact ⟨p, h.fail ht _ _ _⟩
    | other e => cases hs; exact ⟨p, h.fail ht _ _ _⟩
  | stoppingNotify =>
    simp only [hcall] at hs
    cases ended with
    | other e => cases hs; exact ⟨p, h.raise ht _⟩
    | returned value => cases hs; exact ⟨_, hdisconnects hcall⟩
    | timeoutError => cases hs; exact ⟨_, hdisconnects hcall⟩
    | bleakError description => cases hs; exact ⟨_, hdisconnects hcall⟩
  | disconnecting =>
    simp only [hcall] at hs
    cases ended with
    | other e => cases hs; exact ⟨p, h.raise ht _⟩
    | returned value => cases hs; exact ⟨p, h.finish ht []⟩
    | timeoutError => cases hs; exact ⟨p, h.finish ht []⟩
    | bleakError description => cases hs; exact ⟨p, h.finish ht []⟩

theorem Keeps.receive (h : Keeps w p) (ht : w.transport = some t) (data : Bytes) : Keeps (w.receive t data) p := by
  unfold World.receive
  have harrived : Keeps (w.emit [.arrived data]) p := h.emit rfl
  split
  · split
    case isTrue => exact harrived
    case isFalse hopen =>
      refine harrived.emit ?_
      have hclosed : p.closed = false := by
        rw [h.closed t ht]
        simpa using hopen
      simp [Transition.exec, Promise.next, hclosed]
  · exact harrived

theorem Keeps.linkDropped (h : Keeps w p) : Keeps { w with connected := false } p where
  trace := h.trace
  unbuilt := h.unbuilt
  closed := h.closed
  lost := h.lost
  told := h.told
  opened := h.opened
  stopping := h.stopping
  one := h.one

theorem Keeps.clientDisconnected (h : Keeps w p) (ht : w.transport = some t) :
    ∃ p', Keeps (w.clientDisconnected t) p' := by
  unfold World.clientDisconnected
  split
  case isTrue => exact ⟨p, h⟩
  case isFalse hlive =>
    have hlive : t.closed = false ∧ t.linkLost = false := by simpa using hlive
    have hclosed : p.closed = false := (h.closed t ht).trans hlive.1
    have hlost : p.lost = false := (h.lost t ht).trans hlive.2
    have htold : p.told = false := by
      by_contra htold
      exact absurd (hlost.symm.trans (h.told (by simpa using htold))) (by decide)
    have hdropped : Keeps ((w.setTransport { t with linkLost := true }).emit [.dropped]) { p with lost := true } := by
      constructor
      · refine accepts_append h.trace ?_
        simp [Transition.exec, Promise.next, hclosed, hlost]
      · simp [World.setTransport, World.emit]
      · rintro r ⟨⟩
        exact h.closed t ht
      · rintro r ⟨⟩
        rfl
      · exact fun _ => rfl
      · exact h.opened
      · exact h.stopping
      · exact h.one
    split
    · refine ⟨{ p with lost := true, told := true }, ?_⟩
      constructor
      · refine accepts_append hdropped.trace ?_
        simp [Transition.exec, Promise.next, hclosed, htold]
      · exact fun hnone => absurd hnone (by simp [World.setTransport, World.emit])
      · exact hdropped.closed
      · exact hdropped.lost
      · exact fun _ => rfl
      · exact hdropped.opened
      · exact hdropped.stopping
      · exact hdropped.one
    · exact ⟨_, hdropped⟩

theorem World.begin_eq_some {call : BleakTransport → World} (hs : w.begin task call = some w') :
    ∃ t, w.transport = some t ∧ w' = call t := by
  unfold World.begin at hs
  cases ht : w.transport with
  | none => simp [ht] at hs
  | some t =>
    simp only [ht] at hs
    split at hs
    · exact ⟨t, rfl, (Option.some.inj hs).symm⟩
    · cases hs

theorem step_keeps {l : Label} (h : Keeps w p) (hs : step w l = some w') : ∃ p', Keeps w' p' := by
  cases l with
  | build =>
    simp only [step] at hs
    split at hs
    case isTrue hnone =>
      cases hs
      exact ⟨p, h.build (by simpa using hnone)⟩
    case isFalse => cases hs
  | readSoftwareRevision task =>
    obtain ⟨t, ht, rfl⟩ := World.begin_eq_some hs
    exact ⟨p, h.readSoftwareRevision ht⟩
  | startNotify task callbacks services =>
    obtain ⟨t, ht, rfl⟩ := World.begin_eq_some hs
    exact ⟨p, h.startNotify ht callbacks services⟩
  | write task data services =>
    obtain ⟨t, ht, rfl⟩ := World.begin_eq_some hs
    exact ⟨p, h.write ht data services⟩
  | close task =>
    obtain ⟨t, ht, rfl⟩ := World.begin_eq_some hs
    exact h.close ht
  | ended task ended =>
    obtain ⟨t, ht, hs⟩ := Option.bind_eq_some_iff.mp hs
    exact h.resume ht hs
  | received data =>
    obtain ⟨t, ht, hs⟩ := Option.bind_eq_some_iff.mp hs
    split at hs
    · cases hs
      exact ⟨p, h.receive ht data⟩
    · cases hs
  | linkDropped =>
    cases hs
    exact ⟨p, h.linkDropped⟩
  | clientDisconnected =>
    cases hs
    cases ht : w.transport with
    | none => exact ⟨p, by simpa [ht] using h.linkDropped⟩
    | some t =>
      obtain ⟨p', hp⟩ := h.linkDropped.clientDisconnected (t := t) ht
      exact ⟨p', by simpa [ht] using hp⟩

theorem start_keeps : Keeps .start .start where
  trace := rfl
  unbuilt := fun _ => ⟨rfl, fun _ => rfl⟩
  closed := by simp [World.start]
  lost := by simp [World.start]
  told := by simp [Promise.start]
  opened := fun _ => ⟨rfl, rfl, fun _ => ⟨by simp [World.start], by simp [World.start]⟩⟩
  stopping := by simp [World.start]
  one := by simp [World.start]

theorem exec_keeps {ls : List Label} (h : exec .start ls = some w) : ∃ p, Keeps w p :=
  Transition.exec_invariant (I := fun w => ∃ p, Keeps w p) (fun _ _ _ ⟨_, hp⟩ hs => step_keeps hp hs)
    ⟨_, start_keeps⟩ h

/-! What is promised, read off the effects. -/

/-- A GATT call for the session. -/
def Effect.isRequest : Effect → Bool
  | .readGattChar _ | .startNotify _ | .writeGattChar _ _ _ => true
  | _ => false

/-- A call back into the session, or a close that takes effect. -/
def Effect.isCallback : Effect → Bool
  | .notified _ _ | .disconnected _ | .closing _ => true
  | _ => false

/-- A GATT call that lets go of the link. -/
def Effect.isRelease : Effect → Bool
  | .stopNotify _ | .disconnect _ => true
  | _ => false

def Effect.isDisconnected : Effect → Bool
  | .disconnected _ => true
  | _ => false

section

variable {effects : List Effect}

theorem quiet_of_closed (hp : p.closed = true) (h : accepts p effects = some p') :
    ∀ e ∈ effects, e.isRequest = false ∧ e.isCallback = false := by
  refine Transition.exec_forall (I := fun p : Promise => p.closed = true) ?_ hp h
  intro p e q hclosed hq
  cases e <;> grind [Promise.next, Effect.isRequest, Effect.isCallback]

theorem unrequested_of_lost (hp : p.lost = true) (h : accepts p effects = some p') :
    ∀ e ∈ effects, e.isRequest = false := by
  refine Transition.exec_forall (I := fun p : Promise => p.lost = true) ?_ hp h
  intro p e q hlost hq
  cases e <;> grind [Promise.next, Effect.isRequest]

theorem untold_of_told (hp : p.told = true) (h : accepts p effects = some p') :
    ∀ e ∈ effects, e.isDisconnected = false := by
  refine Transition.exec_forall (I := fun p : Promise => p.told = true) ?_ hp h
  intro p e q htold hq
  cases e <;> grind [Promise.next, Effect.isDisconnected]

theorem unreleased_of_released (hp : p.closed = true ∧ p.released = true) (h : accepts p effects = some p') :
    ∀ e ∈ effects, e.isRelease = false := by
  refine Transition.exec_forall (I := fun p : Promise => p.closed = true ∧ p.released = true) ?_ hp h
  intro p e q hgone hq
  cases e <;> grind [Promise.next, Effect.isRelease]

theorem kept_of_undropped (hp : p.lost = false) (hnever : .dropped ∉ effects) (h : accepts p effects = some p') :
    p'.lost = false := by
  induction effects generalizing p with
  | nil => exact Option.some.inj h ▸ hp
  | cons e effects ih =>
    obtain ⟨q, hq, h⟩ := Transition.exec_cons.mp h
    rw [List.mem_cons, not_or] at hnever
    refine ih ?_ hnever.2 h
    cases e <;> grind [Promise.next]

/-- Up to where the close takes effect nothing lets go of the link. -/
theorem unreleased_of_open (hp : p'.closed = false) (h : accepts p effects = some p') :
    ∀ e ∈ effects, e.isRelease = false := by
  intro e he
  obtain ⟨before, after, rfl⟩ := List.append_of_mem he
  obtain ⟨r, r', -, hr, hafter⟩ := Transition.exec_split h
  by_contra hrelease
  have hclosed : r'.closed = true := by
    cases e <;> grind [Promise.next, Effect.isRelease]
  have hkept : p'.closed = true :=
    Transition.exec_invariant (I := fun p : Promise => p.closed = true) (by
      intro p e q hclosed hq
      cases e <;> grind [Promise.next]) hclosed hafter
  exact absurd (hp.symm.trans hkept) (by decide)

end

/-- In every interleaving: once a close takes effect the session is not called
back and no GATT call is made for it, and only then is the link let go, once;
once the link is lost no GATT call is made for the session, which is told of it
at most once. -/
theorem exec_promise {ls : List Label} (h : exec .start ls = some w) :
    (∀ before task after, w.trace = before ++ .closing task :: after →
      (∀ e ∈ after, e.isRequest = false ∧ e.isCallback = false) ∧ ∀ e ∈ before, e.isRelease = false) ∧
    (∀ before after, w.trace = before ++ .dropped :: after → ∀ e ∈ after, e.isRequest = false) ∧
    (∀ before callback after, w.trace = before ++ .disconnected callback :: after →
      .dropped ∈ before ∧ ∀ e ∈ after, e.isDisconnected = false) ∧
    ∀ before task after, w.trace = before ++ .disconnect task :: after → ∀ e ∈ after, e.isRelease = false := by
  obtain ⟨p, hkeeps⟩ := exec_keeps h
  have htrace := hkeeps.trace
  refine ⟨?_, ?_, ?_, ?_⟩
  · intro before task after heq
    rw [heq] at htrace
    obtain ⟨r, r', hbefore, hr, hafter⟩ := Transition.exec_split htrace
    have hopen : r.closed = false ∧ r'.closed = true := by grind [Promise.next]
    exact ⟨quiet_of_closed hopen.2 hafter, unreleased_of_open hopen.1 hbefore⟩
  · intro before after heq
    rw [heq] at htrace
    obtain ⟨r, r', -, hr, hafter⟩ := Transition.exec_split htrace
    have hlost : r'.lost = true := by grind [Promise.next]
    exact unrequested_of_lost hlost hafter
  · intro before callback after heq
    rw [heq] at htrace
    obtain ⟨r, r', hbefore, hr, hafter⟩ := Transition.exec_split htrace
    have htold : r.lost = true ∧ r'.told = true := by grind [Promise.next]
    refine ⟨?_, untold_of_told htold.2 hafter⟩
    by_contra hnever
    have hlost : r.lost = false := kept_of_undropped rfl hnever hbefore
    exact absurd (hlost.symm.trans htold.1) (by decide)
  · intro before task after heq
    rw [heq] at htrace
    obtain ⟨r, r', -, hr, hafter⟩ := Transition.exec_split htrace
    have hreleased : r'.closed = true ∧ r'.released = true := by grind [Promise.next]
    exact unreleased_of_released hreleased hafter

/-! Two coroutines close while a third is writing. -/

def closeRun : List Label :=
  [.build, .startNotify 0 0 (.ok (some ["write-without-response"])), .ended 0 (.returned []), .received [1],
    .write 1 [7] (.error ""), .close 0, .received [2], .close 2, .ended 1 (.bleakError "BleakError"),
    .ended 0 .timeoutError, .clientDisconnected, .ended 0 (.returned [])]

def closed : World := (exec .start closeRun).getD .start

theorem exec_closeRun : exec .start closeRun = some closed := rfl

theorem exec_promise_closeRun :
    ((closed.trace.drop 6).all fun e => !e.isRequest && !e.isCallback) = true := by
  have hquiet := ((exec_promise exec_closeRun).1 (closed.trace.take 5) 0 (closed.trace.drop 6) rfl).1
  rw [List.all_eq_true]
  intro e he
  simp [hquiet e he]

end Bleak

end OnestiLock
