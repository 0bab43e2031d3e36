import OnestiLock.SessionFlight

/-! Commands and their answers under the reference counter: a future is only
completed by the answer to its own command. -/

namespace OnestiLock

open Transition

/-- The reference of the `k`-th command of a session. -/
def refAt (isStatic : Bool) (k : Nat) : Nat := if isStatic then commandRefStatic else k % 127 + 1

/-- The counter after `issued` commands. -/
def counterAt (firmware : FirmwareVersion) (issued : Nat) : CommandRefCounter :=
  ⟨firmware.lt minFirmwareAdmin,
    if firmware.lt minFirmwareAdmin then commandRefMin else issued % 127 + 1⟩

theorem counterAt_next (firmware : FirmwareVersion) (issued : Nat) :
    (counterAt firmware issued).next =
      (refAt (firmware.lt minFirmwareAdmin) issued, counterAt firmware (issued + 1)) := by
  by_cases hf : firmware.lt minFirmwareAdmin = true
  · simp [counterAt, CommandRefCounter.next, refAt, hf]
  · have hwrap : (if issued % 127 + 1 + 1 < commandRefCounterWrap then issued % 127 + 1 + 1
        else commandRefMin) = (issued + 1) % 127 + 1 := by
      show (if issued % 127 + 1 + 1 < 128 then issued % 127 + 1 + 1 else 1) = _
      split <;> omega
    simp [counterAt, CommandRefCounter.next, refAt, hf, hwrap]

theorem counterAt_zero (firmware : FirmwareVersion) :
    counterAt firmware 0 = .forFirmware firmware := by
  by_cases hf : firmware.lt minFirmwareAdmin = true <;>
    simp [counterAt, CommandRefCounter.forFirmware, hf, commandRefMin]

theorem refAt_range (k : Nat) : 1 ≤ refAt false k ∧ refAt false k ≤ 127 := by
  simp only [refAt, Bool.false_eq_true, if_false]
  omega

theorem refAt_eq_iff {j k : Nat} (h : j ≤ k) (hk : k < j + 127) :
    refAt false j = refAt false k ↔ j = k := by
  simp only [refAt, Bool.false_eq_true, if_false]
  omega

/-- The references follow the firmware read by the one coroutine that connects. -/
structure Counted (w : World) (h : TaskId → Hold) : Prop where
  fresh : w.session.state = .new → w.session.refs = none ∧ ∀ t, h t ≠ .reading
  reading : ∀ t, h t = .reading → w.session.refs = none
  unique : ∀ t t', h t = .reading → h t' = .reading → t = t'
  unread : w.session.refs = none → w.issued = 0
  counted : ∀ refs, w.session.refs = some refs → ∃ firmware, w.session.firmware = some firmware ∧
    refs = counterAt firmware w.issued ∧
    ∀ k < w.issued, (w.calls k).staticRef = firmware.lt minFirmwareAdmin ∧
      (w.calls k).commandRef = refAt (firmware.lt minFirmwareAdmin) k
  firmware : ∀ firmware, w.session.firmware = some firmware → w.session.refs ≠ none

namespace Counted

variable {config : SessionConfig} {w w' : World} {h h' : TaskId → Hold} {t : TaskId}

theorem init : Counted (.new config) (World.new config).hold where
  fresh _ := ⟨rfl, fun t ht => by simp [World.hold, World.new] at ht⟩
  reading t ht := by simp [World.hold, World.new] at ht
  unique t t' ht := by simp [World.hold, World.new] at ht
  unread _ := rfl
  counted refs hr := by simp [World.new, Session.new] at hr
  firmware v hv := by simp [World.new, Session.new] at hv

theorem congr (hi : Counted w h) (hnew : w'.session.state = .new → w.session.state = .new)
    (hrefs : w'.session.refs = w.session.refs) (hfirmware : w'.session.firmware = w.session.firmware)
    (hissued : w'.issued = w.issued)
    (hcall : ∀ k, (w'.calls k).commandRef = (w.calls k).commandRef ∧
      (w'.calls k).staticRef = (w.calls k).staticRef) : Counted w' h := by
  constructor
  · intro hs
    rw [hrefs]
    exact hi.fresh (hnew hs)
  · simpa only [hrefs] using hi.reading
  · exact hi.unique
  · simpa only [hrefs, hissued] using hi.unread
  · intro refs hr
    rw [hrefs] at hr
    obtain ⟨v, hv, hc, hk⟩ := hi.counted refs hr
    refine ⟨v, by rw [hfirmware, hv], by rw [hissued, hc], ?_⟩
    intro k hlt
    rw [hissued] at hlt
    rw [(hcall k).1, (hcall k).2]
    exact hk k hlt
  · simpa only [hrefs, hfirmware] using hi.firmware

theorem reseat {x : Hold} (hi : Counted w h) (hx : x ≠ .reading) :
    Counted w (Function.update h t x) := by
  have hback : ∀ t', Function.update h t x t' = .reading → h t' = .reading := by
    intro t' ht'
    by_cases he : t' = t
    · subst he
      rw [Function.update_self] at ht'
      exact absurd ht' hx
    · rwa [Function.update_of_ne he] at ht'
  refine { hi with fresh := ?_, reading := ?_, unique := ?_ }
  · intro hs
    exact ⟨(hi.fresh hs).1, fun t' ht' => (hi.fresh hs).2 t' (hback t' ht')⟩
  · exact fun t' ht' => hi.reading t' (hback t' ht')
  · exact fun t₁ t₂ h₁ h₂ => hi.unique t₁ t₂ (hback t₁ h₁) (hback t₂ h₂)

theorem issue {refs : CommandRefCounter} (hi : Counted w h) (commandId : CommandId)
    (hs : w.session.state.canExchange = true) (hrefs : w.session.refs = some refs) :
    Counted (w.issue commandId refs) h := by
  obtain ⟨v, hv, rfl, hcalls⟩ := hi.counted refs hrefs
  have hnext := counterAt_next v w.issued
  have hnew : w.session.state ≠ .new := by
    intro hn
    rw [hn] at hs
    simp [SessionState.canExchange] at hs
  constructor
  · exact fun hn => absurd hn hnew
  · intro t ht
    have hr := hi.reading t ht
    rw [hrefs] at hr
    simp at hr
  · exact hi.unique
  · intro hr
    simp [World.issue] at hr
  · intro refs' hr
    have hr' : (counterAt v w.issued).next.2 = refs' := Option.some.inj hr
    refine ⟨v, hv, ?_, ?_⟩
    · rw [← hr', hnext]
      rfl
    · intro k hk
      by_cases he : k = w.issued
      · subst he
        simp [World.issue, Call.issued, hnext]
        simp [counterAt]
      · have hk' : k < w.issued := by
          have hk'' : k < w.issued + 1 := hk
          omega
        simpa [World.issue, he] using hcalls k hk'
  · intro v' hv'
    simp [World.issue]

theorem modifyCall (hi : Counted w h) (call : Nat) {f : Call → Call}
    (hf : ∀ c, (f c).commandRef = c.commandRef ∧ (f c).staticRef = c.staticRef) :
    Counted (w.modifyCall call f) h := by
  refine hi.congr id rfl rfl rfl ?_
  intro k
  by_cases hk : k = call
  · subst hk
    simpa [World.modifyCall] using hf _
  · simp [World.modifyCall, hk]

theorem withLock (hi : Counted w h) (lock : FifoLock TaskId) : Counted (w.withLock lock) h :=
  hi.congr id rfl rfl rfl (fun _ => ⟨rfl, rfl⟩)

theorem endCall (hi : Counted w h) (call : Nat) (ending : Ending) (readyAt : Nat) :
    Counted (w.endCall call ending readyAt) h := by
  let cleared : World :=
    { w with session := { w.session with pending := none, readyAt := readyAt } }
  have hc : Counted cleared h := hi.congr id rfl rfl rfl (fun _ => ⟨rfl, rfl⟩)
  refine hc.modifyCall call ?_
  exact fun _ => ⟨rfl, rfl⟩

theorem startReading (hi : Counted w h) (hs : w.session.state = .new) :
    Counted { w with session := { w.session with state := .connecting } }
      (Function.update h t .reading) := by
  obtain ⟨hrefs, hnone⟩ := hi.fresh hs
  have honly : ∀ t', Function.update h t .reading t' = .reading → t' = t := by
    intro t' ht'
    by_contra he
    rw [Function.update_of_ne he] at ht'
    exact hnone t' ht'
  refine ⟨by simp, fun _ _ => hrefs, ?_, hi.unread, hi.counted, hi.firmware⟩
  intro t₁ t₂ h₁ h₂
  rw [honly t₁ h₁, honly t₂ h₂]

theorem gotRevision (hi : Counted w h) (v : FirmwareVersion) (ht : h t = .reading) :
    Counted { w with session := { w.session with firmware := some v, refs := some (.forFirmware v) } }
      (Function.update h t .outside) := by
  have hissued := hi.unread (hi.reading t ht)
  have hnone : ∀ t', Function.update h t .outside t' ≠ .reading := by
    intro t' ht'
    by_cases he : t' = t
    · subst he
      simp at ht'
    · rw [Function.update_of_ne he] at ht'
      exact he (hi.unique t' t ht' ht)
  constructor
  · exact fun hn => absurd ht ((hi.fresh hn).2 t)
  · exact fun t' ht' => absurd ht' (hnone t')
  · exact fun t' _ ht' => absurd ht' (hnone t')
  · exact fun hr => by simp at hr
  · intro refs hr
    refine ⟨v, rfl, ?_, ?_⟩
    · show refs = counterAt v w.issued
      rw [hissued, counterAt_zero]
      exact (Option.some.inj hr).symm
    · intro k hk
      have hk' : k < w.issued := hk
      omega
  · exact fun _ _ => by simp

theorem move {reopens : Prop} (hm : Move config reopens (w, h) (w', h')) (hi : Counted w h) :
    Counted w' h' := by
  cases hm with
  | quiet hq =>
    exact hi.congr hq.new hq.refs hq.firmware hq.issued (fun k => by rw [hq.calls]; exact ⟨rfl, rfl⟩)
  | connected hc => exact hi.congr (by simp) rfl rfl rfl (fun _ => ⟨rfl, rfl⟩)
  | take ht hfree hlock => exact (hi.withLock _).reseat (by simp)
  | pause ht => exact hi.reseat (by simp)
  | ready ht hr => exact hi.reseat (by simp)
  | wake ht hr => exact hi.reseat (by simp)
  | begin commandId ht hs hrefs =>
    refine Counted.reseat ?_ (by simp)
    exact (hi.issue commandId hs hrefs).congr id rfl rfl rfl (fun _ => ⟨rfl, rfl⟩)
  | refuse commandId ht hs hrefs =>
    exact (hi.issue commandId hs hrefs).modifyCall _ (fun _ => ⟨rfl, rfl⟩)
  | written ht => exact hi.modifyCall _ (fun _ => ⟨rfl, rfl⟩)
  | settle call hf => exact hi.modifyCall _ (fun _ => ⟨rfl, rfl⟩)
  | finish ending ht => exact (hi.endCall _ ending _).reseat (by simp)
  | leave ht => exact (hi.withLock _).reseat (by simp)
  | startReading hs ht => exact hi.startReading hs
  | gotRevision v ht => exact hi.gotRevision v ht
  | stopReading ht => exact hi.reseat (by simp)
  | close ht hs => exact hi.reseat (by simp)
  | stopClosing ht => exact hi.reseat (by simp)
  | tick ticks => exact hi.congr id rfl rfl rfl (fun _ => ⟨rfl, rfl⟩)

theorem step {prim : Primitives} {l : Label} (hi : Counted w w.hold)
    (hs : w.step config prim l = some w') : Counted w' w'.hold := by
  refine step_preserves (I := Counted) (fun hm hv => hv.move hm) ?_ hi hs
  exact fun _ _ _ h₁ => h₁.modifyCall _ (fun _ => ⟨rfl, rfl⟩)

theorem reachable {prim : Primitives} {ls : List Label}
    (hr : exec (World.step config prim) (.new config) ls = some w) : Counted w w.hold :=
  exec_invariant (I := fun w => Counted w w.hold) (fun _ _ _ hi hs => hi.step hs) init hr

end Counted

/-! Genuine answers. -/

/-- What arrives in this turn is an event, or an answer that the lock sent to
one of the last 127 commands, under the reference of that command. -/
def Genuine (w : World) : Label → Prop
  | .notify data origin => ∀ r ∈ w.arrived data, r.isEvent = false →
      ∃ k ∈ origin, k < w.issued ∧ r.commandRef = (w.calls k).commandRef ∧ w.issued < k + 128
  | _ => True

instance (w : World) (l : Label) : Decidable (Genuine w l) :=
  match l with
  | .notify data origin => inferInstanceAs (Decidable (∀ r ∈ w.arrived data, r.isEvent = false →
      ∃ k ∈ origin, k < w.issued ∧ r.commandRef = (w.calls k).commandRef ∧ w.issued < k + 128))
  | .connect _ | .send .. | .close _ | .resume .. | .cancel _ | .expire _ | .disconnect | .tick _ =>
    .isTrue trivial

/-- Every completed future holds the answer to its own command. -/
def OwnAnswers (w : World) : Prop :=
  ∀ k r, (w.calls k).future = .answered r →
    ∃ time, (w.calls k).completion = some ⟨some k, time⟩ ∧
      r.commandRef = (w.calls k).commandRef ∧ r.isEvent = false

namespace OwnAnswers

variable {config : SessionConfig} {w w' : World} {h h' : TaskId → Hold}

theorem congr (hi : OwnAnswers w) (hcalls : w'.calls = w.calls) : OwnAnswers w' := by
  intro k r hr
  rw [hcalls] at hr ⊢
  exact hi k r hr

theorem modifyCall (hi : OwnAnswers w) (call : Nat) {f : Call → Call}
    (hf : ∀ c r, (f c).future = .answered r → c.future = .answered r ∧
      (f c).completion = c.completion ∧ (f c).commandRef = c.commandRef) :
    OwnAnswers (w.modifyCall call f) := by
  intro k r hr
  by_cases hk : k = call
  · subst hk
    simp only [World.modifyCall, Function.update_self] at hr ⊢
    obtain ⟨hold, hc, href⟩ := hf _ r hr
    rw [hc, href]
    exact hi k r hold
  · simp only [World.modifyCall, Function.update_of_ne hk] at hr ⊢
    exact hi k r hr

theorem issue (hi : OwnAnswers w) (commandId : CommandId) (refs : CommandRefCounter) :
    OwnAnswers (w.issue commandId refs) := by
  intro k r hr
  by_cases hk : k = w.issued
  · simp [World.issue, hk, Call.issued] at hr
  · simp only [World.issue, Function.update_of_ne hk] at hr ⊢
    exact hi k r hr

theorem isWaiting_ite {c : Call} {f : Future} {r : Response} (hf : ∀ r, f ≠ .answered r)
    (h : (if c.future.isWaiting then f else c.future) = .answered r) : c.future = .answered r := by
  by_cases hw : c.future.isWaiting = true
  · rw [if_pos hw] at h
    exact absurd h (hf r)
  · rwa [if_neg hw] at h

theorem move {reopens : Prop} (hm : Move config reopens (w, h) (w', h')) (hi : OwnAnswers w) :
    OwnAnswers w' := by
  cases hm with
  | quiet hq => exact hi.congr hq.calls
  | begin commandId ht hs hrefs => exact (hi.issue commandId _).congr rfl
  | refuse commandId ht hs hrefs =>
    refine (hi.issue commandId _).modifyCall _ ?_
    exact fun c r hr => ⟨isWaiting_ite (by simp) hr, rfl, rfl⟩
  | written ht =>
    refine hi.modifyCall _ ?_
    exact fun c r hr => ⟨hr, rfl, rfl⟩
  | settle call hf =>
    refine hi.modifyCall _ ?_
    exact fun c r hr => ⟨isWaiting_ite hf hr, rfl, rfl⟩
  | @finish w h t call ending ht =>
    let cleared : World := { w with session := { w.session with
      pending := none, readyAt := w.endReadyAt config call ending } }
    have hc : OwnAnswers cleared := hi.congr rfl
    refine hc.modifyCall _ ?_
    exact fun c r hr => ⟨isWaiting_ite (by simp) hr, rfl, rfl⟩
  | connected | take | pause | ready | wake | leave | startReading | gotRevision | stopReading
  | close | stopClosing | tick => exact hi.congr rfl

theorem complete {call : Nat} {r : Response} (hi : OwnAnswers w)
    (href : r.commandRef = (w.calls call).commandRef) (hevent : r.isEvent = false) :
    OwnAnswers (w.complete call (some call) r) := by
  intro k r' hr
  by_cases hk : k = call
  · subst hk
    simp only [World.complete, World.modifyCall, Function.update_self] at hr ⊢
    obtain rfl := Future.answered.inj hr
    exact ⟨w.now, rfl, href, hevent⟩
  · simp only [World.complete, World.modifyCall, Function.update_of_ne hk] at hr ⊢
    exact hi k r' hr

end OwnAnswers

/-- The firmware read, if any, is one with this kind of references. -/
def RefsAre (isStatic : Bool) (w : World) : Prop :=
  ∀ firmware, w.session.firmware = some firmware → firmware.lt minFirmwareAdmin = isStatic

theorem Counted.call {w : World} {h : TaskId → Hold} {isStatic : Bool} {k : Nat} (hi : Counted w h)
    (hs : RefsAre isStatic w) (hk : k < w.issued) :
    (w.calls k).staticRef = isStatic ∧ (w.calls k).commandRef = refAt isStatic k := by
  have hrefs : w.session.refs ≠ none := by
    intro hn
    have hzero := hi.unread hn
    omega
  obtain ⟨refs, hrefs⟩ := Option.ne_none_iff_exists'.mp hrefs
  obtain ⟨v, hv, -, hcalls⟩ := hi.counted refs hrefs
  rw [← hs v hv]
  exact hcalls k hk

theorem Move.refsAre {config : SessionConfig} {reopens : Prop} {w w' : World} {h h' : TaskId → Hold}
    {isStatic : Bool} (hm : Move config reopens (w, h) (w', h')) (hcount : Counted w h)
    (hs : RefsAre isStatic w') : RefsAre isStatic w := by
  cases hm with
  | quiet hq =>
    intro v hv
    exact hs v (hq.firmware ▸ hv)
  | gotRevision v ht =>
    intro v' hv'
    exact absurd (hcount.reading _ ht) (hcount.firmware v' hv')
  | connected | take | pause | ready | wake | begin | refuse | written | settle | finish | leave
  | startReading | stopReading | close | stopClosing | tick => exact hs

/-- Under the counter, a genuine answer that completes a future is the answer
to the last command: no other of the last 127 has its reference. -/
theorem completes_own {config : SessionConfig} {w : World} {data : Bytes} {r : Response} {p : Pending}
    {origin : Option Nat} (hflight : Flight config w w.hold) (hcount : Counted w w.hold)
    (hcounter : RefsAre false w) (hg : Genuine w (.notify data origin)) (hc : Completes w data r p) :
    origin = some p.call := by
  obtain ⟨k, hk₀, hk, href, hrecent⟩ := hg r hc.arrives hc.notEvent
  obtain rfl : origin = some k := hk₀
  have hlast := hflight.last p hc.pending
  have hk' := (hcount.call hcounter hk).2
  have hp' := (hcount.call hcounter (show p.call < w.issued by omega)).2
  have heq : refAt false k = refAt false p.call := by
    rw [← hk', ← hp', ← href, hc.ref, (hflight.same p hc.pending).1]
  exact congrArg some ((refAt_eq_iff (by omega) (by omega)).mp heq)

theorem ownAnswers_step {config : SessionConfig} {prim : Primitives} {w w' : World} {l : Label}
    (hflight : Flight config w w.hold) (hcount : Counted w w.hold)
    (hi : RefsAre false w → OwnAnswers w) (hg : Genuine w l) (hs : w.step config prim l = some w') :
    RefsAre false w' → OwnAnswers w' := by
  have hboth : Counted w' w'.hold ∧ (RefsAre false w' → OwnAnswers w') := by
    refine step_preserves (I := fun v h => Counted v h ∧ (RefsAre false v → OwnAnswers v)) ?_ ?_
      ⟨hcount, hi⟩ hs
    · rintro v v' h h' hm ⟨hv, hown⟩
      exact ⟨hv.move hm, fun hc => (hown (hm.refsAre hv hc)).move hm⟩
    · rintro data origin w₁ p r rfl hq hc ⟨h₁, hown⟩
      refine ⟨h₁.modifyCall _ (fun _ => ⟨rfl, rfl⟩), ?_⟩
      intro hcounter
      have hcounter₁ : RefsAre false w := by
        intro v hv
        exact hcounter v (hq.firmware.trans hv)
      obtain rfl := completes_own hflight hcount hcounter₁ hg hc
      have href : r.commandRef = (w₁.calls p.call).commandRef := by
        rw [hc.ref, hq.calls, (hflight.same p hc.pending).1]
      exact (hown hcounter).complete href hc.notEvent
  exact hboth.2

/-- In every run whose answers are genuine, on firmware with the counter, a
future is only ever completed by the answer to its own command, and the
references stay apart. -/
theorem answers_correlate (config : SessionConfig) (prim : Primitives) {ls : List Label} {w : World}
    {firmware : FirmwareVersion} (hg : Along (World.step config prim) Genuine (.new config) ls)
    (hr : exec (World.step config prim) (.new config) ls = some w)
    (hfirmware : w.session.firmware = some firmware) (hcounter : firmware.lt minFirmwareAdmin = false) :
    OwnAnswers w ∧
    (∀ k < w.issued, 1 ≤ (w.calls k).commandRef ∧ (w.calls k).commandRef ≤ 127 ∧
      (w.calls k).commandRef ≠ eventCommandRef) ∧
    ∀ j k, j < k → k < w.issued → k < j + 127 → (w.calls j).commandRef ≠ (w.calls k).commandRef := by
  have hcount := Counted.reachable hr
  have hcounts : RefsAre false w := by
    intro v hv
    rw [← Option.some.inj (hfirmware.symm.trans hv)]
    exact hcounter
  have hinv : Flight config w w.hold ∧ Counted w w.hold ∧ (RefsAre false w → OwnAnswers w) := by
    refine exec_invariant_along
      (I := fun w => Flight config w w.hold ∧ Counted w w.hold ∧ (RefsAre false w → OwnAnswers w))
      ?_ ⟨Flight.init, Counted.init, ?_⟩ hg hr
    · rintro v l v' ⟨hflight, hv, hown⟩ hgen hs
      exact ⟨hflight.step hs, hv.step hs, ownAnswers_step hflight hv hown hgen hs⟩
    · intro _ k r hk
      simp [World.new, Call.issued] at hk
  have href : ∀ k < w.issued, (w.calls k).commandRef = refAt false k :=
    fun k hk => (hcount.call hcounts hk).2
  refine ⟨hinv.2.2 hcounts, ?_, ?_⟩
  · intro k hk
    have hrange := refAt_range k
    rw [href k hk]
    refine ⟨hrange.1, hrange.2, ?_⟩
    show refAt false k ≠ 128
    omega
  · intro j k hjk hk hnear heq
    rw [href j (by omega), href k hk] at heq
    have hsame := (refAt_eq_iff (by omega) hnear).mp heq
    omega


namespace CounterRun

/-- Firmware 4.8.0 answers the key exchange and is then asked for its model. -/
def labels : List Label :=
  [.connect 0, .resume 0 (.returned [52, 46, 56, 46, 48]), .resume 0 (.returned []),
    .resume 0 (.returned []),
    .notify ([1, 68, 1, 0, 1, 64, 1, 0] ++ encodePublicKey generator) (some 0),
    .resume 0 (.returned []), .tick 320, .resume 0 (.returned [])]

end CounterRun

open CounterRun in
theorem answers_correlate_keyExchange : ∃ w,
    exec (World.step .scalarOne .scalarOne) (.new .scalarOne) labels = some w ∧ w.issued = 2 ∧ OwnAnswers w := by
  have hend : (exec (World.step .scalarOne .scalarOne) (.new .scalarOne) labels).map
      (fun w => (w.session.firmware, w.issued)) = some (some ⟨4, 8, 0⟩, 2) := by decide +kernel
  obtain ⟨w, hw, heq⟩ := Option.map_eq_some_iff.mp hend
  obtain ⟨hfirmware, hissued⟩ := Prod.mk.inj heq
  have hg : Along (World.step .scalarOne .scalarOne) Genuine (.new .scalarOne) labels := by decide +kernel
  exact ⟨w, hw, hissued, (answers_correlate .scalarOne .scalarOne hg hw hfirmware (by decide)).1⟩

end OnestiLock
