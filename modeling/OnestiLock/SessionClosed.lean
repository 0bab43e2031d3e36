import OnestiLock.SessionTurns

/-! When a closed session stays closed. `connect` writes CONNECTED after its
last exchange without looking at the state, so one turn can undo a close. -/

namespace OnestiLock

open Transition

/-- A coroutine that has begun to close the session has closed it. -/
def ClosingClosed (w : World) (h : TaskId → Hold) : Prop :=
  ∀ t, h t = .closing → w.session.state = .closed

theorem ClosingClosed.update {w : World} {h : TaskId → Hold} {x : Hold} (t : TaskId)
    (hi : ClosingClosed w h) (hx : x ≠ .closing) : ClosingClosed w (Function.update h t x) := by
  intro t' ht'
  by_cases he : t' = t
  · subst he
    rw [Function.update_self] at ht'
    exact absurd ht' hx
  · rw [Function.update_of_ne he] at ht'
    exact hi t' ht'

section

variable {config : SessionConfig} {prim : Primitives} {reopens : Prop}
variable {w w' : World} {l : Label}

theorem Move.closingClosed {h h' : TaskId → Hold} (hm : Move config reopens (w, h) (w', h'))
    (hn : ¬ reopens) (hi : ClosingClosed w h) : ClosingClosed w' h' := by
  cases hm with
  | quiet hq => exact fun t ht => hq.closed (hi t ht)
  | connected hc => exact fun t ht => absurd (hc (hi t ht)) hn
  | take ht hfree hlock => exact hi.update _ (by simp)
  | pause ht => exact hi.update _ (by simp)
  | ready ht hr => exact hi.update _ (by simp)
  | wake ht hr => exact hi.update _ (by simp)
  | begin commandId ht hs hrefs => exact hi.update _ (by simp)
  | refuse commandId ht hs hrefs => exact hi
  | written ht => exact hi
  | settle call hf => exact hi
  | finish ending ht => exact hi.update _ (by simp)
  | leave ht => exact hi.update _ (by simp)
  | startReading hs ht =>
    refine ClosingClosed.update _ ?_ (by simp)
    intro t hc
    rw [hi t hc] at hs
    exact absurd hs (by decide)
  | gotRevision firmware ht => exact hi.update _ (by simp)
  | stopReading ht => exact hi.update _ (by simp)
  | close ht hs => exact fun _ _ => hs
  | stopClosing ht => exact hi.update _ (by simp)
  | tick ticks => exact hi

theorem Move.closed {h h' : TaskId → Hold} (hm : Move config reopens (w, h) (w', h'))
    (hn : ¬ reopens) (hs : w.session.state = .closed) :
    w'.session.state = .closed ∧ w'.issued = w.issued := by
  have hno : w.session.state.canExchange = true → False := by simp [hs, SessionState.canExchange]
  cases hm with
  | quiet hq => exact ⟨hq.closed hs, hq.issued⟩
  | connected hc => exact absurd (hc hs) hn
  | begin commandId ht hx hrefs => exact (hno hx).elim
  | refuse commandId ht hx hrefs => exact (hno hx).elim
  | startReading hx ht =>
    rw [hs] at hx
    exact absurd hx (by decide)
  | take | pause | ready | wake | written | settle | finish | leave | gotRevision | stopReading
  | close | stopClosing | tick => exact ⟨hs, rfl⟩

theorem step_closingClosed (hn : ¬ Reopens config prim w l) (h : w.step config prim l = some w')
    (hi : ClosingClosed w w.hold) : ClosingClosed w' w'.hold :=
  step_preserves (I := ClosingClosed) (fun hm hv => hm.closingClosed hn hv) (fun _ _ _ hv => hv) hi h

theorem step_closed (hn : ¬ Reopens config prim w l) (h : w.step config prim l = some w')
    (hs : w.session.state = .closed) : w'.session.state = .closed ∧ w'.issued = w.issued := by
  refine step_preserves (I := fun v _ => v.session.state = .closed ∧ v.issued = w.issued)
    ?_ (fun _ _ _ hv => hv) ⟨hs, rfl⟩ h
  rintro v v' hold hold' hm ⟨hc, hi⟩
  obtain ⟨hc', hi'⟩ := hm.closed hn hc
  exact ⟨hc', hi'.trans hi⟩

theorem closeSession_state (w : World) : w.closeSession.session.state = .closed :=
  failPending_state _

theorem step_closes (h : w.step config prim l = some w')
    (hl : (∃ tid, l = .close tid) ∨ l = .disconnect) : w'.session.state = .closed := by
  rcases hl with ⟨tid, rfl⟩ | rfl
  · simp only [World.step] at h
    split_ifs at h
    obtain rfl := Option.some.inj h
    exact closeSession_state w
  · obtain rfl := Option.some.inj h
    show w.onDisconnect.session.state = .closed
    unfold World.onDisconnect
    split_ifs with hs
    · exact hs
    · exact failPending_state _

theorem run_closed {ls : List Label}
    (hg : Along (World.step config prim) (fun w l => ¬ Reopens config prim w l) w ls)
    (h : exec (World.step config prim) w ls = some w') (hs : w.session.state = .closed) :
    w'.session.state = .closed ∧ w'.issued = w.issued := by
  have hstep : ∀ v l v', (v.session.state = .closed ∧ v.issued = w.issued) →
      ¬ Reopens config prim v l → World.step config prim v l = some v' →
      v'.session.state = .closed ∧ v'.issued = w.issued := by
    rintro v l v' ⟨hc, hi⟩ hn hv
    obtain ⟨hc', hi'⟩ := step_closed hn hv hc
    exact ⟨hc', hi'.trans hi⟩
  exact exec_invariant_along hstep ⟨hs, rfl⟩ hg h

end

/-- In this run `close` has started, by its own or in a failing `connect`, or
the disconnect callback has run. -/
def CloseStarted (ls : List Label) (w : World) : Prop :=
  (∃ tid, Label.close tid ∈ ls) ∨ Label.disconnect ∈ ls ∨ ∃ tid e, w.tasks tid = some (.failingConnect e)

theorem closeStarted_closed {config : SessionConfig} {prim : Primitives} {ls : List Label} {w : World}
    (hg : Along (World.step config prim) (fun w l => ¬ Reopens config prim w l) (.new config) ls)
    (h : exec (World.step config prim) (.new config) ls = some w) (hstart : CloseStarted ls w) :
    w.session.state = .closed := by
  have hlabel : (∃ l ∈ ls, (∃ tid, l = Label.close tid) ∨ l = .disconnect) →
      w.session.state = .closed := by
    rintro ⟨l, hl, hcloses⟩
    obtain ⟨before, after, rfl⟩ := List.append_of_mem hl
    obtain ⟨v, hv, hw⟩ := exec_append.mp h
    obtain ⟨v', hv', hw⟩ := exec_cons.mp hw
    exact (run_closed ((hg.append hv).2 v' hv') hw (step_closes hv' hcloses)).1
  rcases hstart with ⟨tid, hl⟩ | hl | ⟨tid, e, ht⟩
  · exact hlabel ⟨_, hl, .inl ⟨tid, rfl⟩⟩
  · exact hlabel ⟨_, hl, .inr rfl⟩
  · have hinit : ClosingClosed (World.new config) (World.new config).hold := by
      intro t ht
      simp [World.hold, World.new] at ht
    have hinv := exec_invariant_along (fun v l v' hi hn hv => step_closingClosed hn hv hi) hinit hg h
    exact hinv tid (World.hold_of_tasks ht)

/-- As long as `connect` never resumes from its last exchange, accepted, on a
closed session, the session stays closed and takes no further reference. -/
theorem closed_absorbing (config : SessionConfig) (prim : Primitives) {ls ms : List Label} {w w' : World}
    (hg : Along (World.step config prim) (fun w l => ¬ Reopens config prim w l) (.new config) (ls ++ ms))
    (hls : exec (World.step config prim) (.new config) ls = some w) (hstart : CloseStarted ls w)
    (hms : exec (World.step config prim) w ms = some w') :
    w'.session.connected = false ∧ w'.issued = w.issued := by
  have hs := closeStarted_closed hg.of_append hls hstart
  obtain ⟨hc, hi⟩ := run_closed (hg.append hls) hms hs
  exact ⟨by simp [Session.connected, hc], hi⟩

namespace KeptClosedRun

/-- A `connect` that asks for the model once it has the key. -/
def asksForModel : Coroutine → Bool
  | .exchanging (.connectKey firmware) _ _ => !firmware.lt minFirmwareAdmin
  | _ => false

/-- A turn of an open session, or of a `connect` that has one more exchange to make. -/
def harmless (w : World) : Label → Bool
  | .resume tid _ => w.session.state != .closed || (w.tasks tid).any asksForModel
  | _ => true

theorem not_reopens_of_harmless {config : SessionConfig} {prim : Primitives} {w : World} {l : Label}
    (h : harmless w l = true) : ¬ Reopens config prim w l := by
  rintro ⟨hclosed, tid, reply, caller, command, await, call, r, rfl, htask, -, -, -, haccept⟩
  simp only [harmless, htask, hclosed, bne_self_eq_false, Bool.false_or, Option.any_some] at h
  cases caller with
  | connectKey firmware => simp [asksForModel, haccept.1] at h
  | send => cases h
  | connectModel => cases h

/-- Firmware 4.8.0: the key exchange is answered, and `close` comes before `connect`
goes on. -/
def untilClosed : List Label :=
  [.connect 0, .resume 0 (.returned [52, 46, 56, 46, 48]), .resume 0 (.returned []), .resume 0 (.returned []),
    .notify ([1, 68, 1, 0, 1, 64, 1, 0] ++ encodePublicKey generator) (some 0), .close 1]

def afterwards : List Label := [.resume 0 (.returned []), .send 2 ⟨.deviceNameGet, []⟩ false]

theorem along_harmless : Along (World.step .scalarOne .scalarOne) (fun w l => harmless w l = true) (.new .scalarOne)
    (untilClosed ++ afterwards) := by decide +kernel

theorem exists_run : ∃ w w', exec (World.step .scalarOne .scalarOne) (.new .scalarOne) untilClosed = some w ∧
    exec (World.step .scalarOne .scalarOne) w afterwards = some w' := by
  have hruns : (exec (World.step .scalarOne .scalarOne) (.new .scalarOne) (untilClosed ++ afterwards)).isSome = true := by
    decide +kernel
  obtain ⟨w', hw'⟩ := Option.isSome_iff_exists.mp hruns
  obtain ⟨w, hw, hw'⟩ := exec_append.mp hw'
  exact ⟨w, w', hw, hw'⟩

end KeptClosedRun

open KeptClosedRun in
/-- `connect` goes on with an answer after the close, and the session stays closed. -/
theorem closed_absorbing_early : ∃ w w' : World,
    exec (World.step .scalarOne .scalarOne) (.new .scalarOne) untilClosed = some w ∧
      exec (World.step .scalarOne .scalarOne) w afterwards = some w' ∧
      w'.session.connected = false ∧ w'.issued = w.issued := by
  obtain ⟨w, w', hw, hw'⟩ := exists_run
  have hg : Along (World.step .scalarOne .scalarOne) (fun w l => ¬ Reopens .scalarOne .scalarOne w l) (.new .scalarOne)
      (untilClosed ++ afterwards) := along_harmless.mono (fun _ _ => not_reopens_of_harmless)
  exact ⟨w, w', hw, hw', closed_absorbing .scalarOne .scalarOne hg hw (.inl ⟨1, by simp [untilClosed]⟩) hw'⟩

theorem awaitAnswer_answered {config : SessionConfig} {w : World} {command : CommandPayload} {call : Nat}
    {r answer : Response} (hf : (w.calls call).future = .answered r)
    (hcheck : checkAnswer command.commandId r = .ok answer) :
    (w.awaitAnswer config command call).2 = .ended (.ok answer) := by
  simp only [World.awaitAnswer, hf, hcheck, liftBle_ok, World.leave]

theorem resumeExchange_answered (config : SessionConfig) {w : World} (tid : TaskId)
    {command : CommandPayload} {reply : Reply} {await : Await} {call : Nat} {r answer : Response}
    (hawait : await = .answering call ∨ await = .writing call [] ∧ ∃ raw, reply = .returned raw)
    (hf : (w.calls call).future = .answered r)
    (hcheck : checkAnswer command.commandId r = .ok answer) :
    ∃ v, w.resumeExchange config tid command reply await = some (v, .ended (.ok answer)) := by
  rcases hawait with rfl | ⟨rfl, raw, rfl⟩
  · refine ⟨(w.awaitAnswer config command call).1, ?_⟩
    have hdone : (w.calls call).future.isWaiting = false := by rw [hf]; rfl
    rw [World.resumeExchange, if_neg (by simp [hdone]), ← awaitAnswer_answered hf hcheck]
  · let written := w.modifyCall call (fun c => { c with written := true })
    have hw : (written.calls call).future = .answered r := by simpa [written, World.modifyCall] using hf
    refine ⟨(written.awaitAnswer config command call).1, ?_⟩
    rw [World.resumeExchange, World.writeNext, ← awaitAnswer_answered hw hcheck]

/-- The turn that is left out does reopen the session. -/
theorem step_reopens {config : SessionConfig} {prim : Primitives} {w w' : World} {l : Label}
    (hr : Reopens config prim w l) (h : w.step config prim l = some w') :
    w'.session.connected = true := by
  obtain ⟨-, tid, reply, caller, command, await, call, r, rfl, htask, hint, hawait, hf, haccept⟩ := hr
  have hcheck : ∃ answer, checkAnswer command.commandId r = .ok answer := by
    cases caller with
    | send => exact haccept.elim
    | connectKey firmware => exact ⟨_, haccept.2.choose_spec.choose_spec.1⟩
    | connectModel => exact ⟨_, haccept.choose_spec.choose_spec.1⟩
  obtain ⟨answer, hcheck⟩ := hcheck
  obtain ⟨v, hv⟩ := resumeExchange_answered config tid hawait
    (show ((w.consumeInterrupt tid).calls call).future = .answered r from hf) hcheck
  simp only [World.step, World.resume, htask, hint, Option.bind_some, World.resumeTask,
    Option.isSome_none, Bool.false_eq_true, if_false, hv, Option.map_some, Option.some.injEq] at h
  subst h
  cases caller with
  | send => exact haccept.elim
  | connectKey firmware =>
    obtain ⟨hlt, answer', keys, hcheck', hk⟩ := haccept
    obtain rfl := Except.ok.inj (hcheck.symm.trans hcheck')
    simp [World.progress, World.keyProgress, hk, hlt, World.finishConnect, World.finish, World.setTask,
      Session.connected]
  | connectModel =>
    obtain ⟨answer', model, hcheck', hp⟩ := haccept
    obtain rfl := Except.ok.inj (hcheck.symm.trans hcheck')
    simp [World.progress, World.modelProgress, hp, World.finishConnect, World.finish, World.setTask,
      Session.connected]

/-! A close that lands between the answer and the turn of `connect`. -/

namespace ReopenedRun

def exchangeKeyPubL : Bytes := [1, 68, 1, 0, 1, 64, 16, 0] ++ encodePublicKey generator

def untilClosed : List Label :=
  [.connect 0, .resume 0 (.returned [52, 46, 54, 46, 53]), .resume 0 (.returned []),
    .resume 0 (.returned []), .notify exchangeKeyPubL (some 0), .close 1]

/-- `connect` returns, and after its pause a command goes out. -/
def afterwards : List Label :=
  [.resume 0 (.returned []), .tick 320, .send 2 ⟨.deviceNameGet, []⟩ false]

end ReopenedRun

open ReopenedRun in
theorem closed_session_reopened :
    ¬ ∀ (config : SessionConfig) (prim : Primitives) (ls ms : List Label) (w w' : World),
      exec (World.step config prim) (.new config) ls = some w → CloseStarted ls w →
      exec (World.step config prim) w ms = some w' →
      w'.session.connected = false ∧ w'.issued = w.issued := by
  intro h
  have hclosed : ((exec (World.step .scalarOne .scalarOne) (.new .scalarOne) untilClosed).map
      (fun w => w.issued)) = some 1 := by decide +kernel
  have hreopened : ((exec (World.step .scalarOne .scalarOne) (.new .scalarOne) (untilClosed ++ afterwards)).map
      (fun w => (w.session.connected, w.issued))) = some (true, 2) := by decide +kernel
  simp only [Option.map_eq_some_iff, exec_append] at hclosed hreopened
  obtain ⟨w', ⟨w, hw, hw'⟩, hreopened⟩ := hreopened
  have hfalse := (h .scalarOne .scalarOne untilClosed afterwards w w' hw
    (.inl ⟨1, by simp [untilClosed]⟩) hw').1
  rw [(Prod.mk.inj hreopened).1] at hfalse
  exact Bool.noConfusion hfalse

end OnestiLock
