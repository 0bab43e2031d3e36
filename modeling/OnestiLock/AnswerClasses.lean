import OnestiLock.SessionSecrecy

/-! What `send` makes of the answer to its command: returned, raised as the
lock's refusal, or raised as the answer to something else. -/

namespace OnestiLock

open Transition

/-- Every completed future holds an answer under its command's reference, and
under the static one an answer with its command's id. -/
structure RightAnswers (w : World) : Prop where
  pending : ∀ p, w.session.pending = some p → (w.calls p.call).commandId = p.commandId
  answered : ∀ k r, (w.calls k).future = .answered r → r.commandRef = (w.calls k).commandRef ∧
    ((w.calls k).staticRef = true → r.responseId = expectedResponseId (w.calls k).commandId)

/-- The identity of a command, which its history does not change. -/
def Call.identity (c : Call) : CommandId × Nat × Bool := (c.commandId, c.commandRef, c.staticRef)

namespace RightAnswers

variable {config : SessionConfig} {prim : Primitives} {w w' : World} {h h' : TaskId → Hold}

theorem init (config : SessionConfig) : RightAnswers (.new config) where
  pending p hp := by simp [World.new, Session.new] at hp
  answered k r hr := by simp [World.new, Call.issued] at hr

theorem update (hi : RightAnswers w) (hpending : ∀ p, w'.session.pending = some p → w.session.pending = some p)
    (hid : ∀ k, (w'.calls k).identity = (w.calls k).identity)
    (hfuture : ∀ k r, (w'.calls k).future = .answered r → (w.calls k).future = .answered r) :
    RightAnswers w' := by
  have hfields : ∀ k, (w'.calls k).commandId = (w.calls k).commandId ∧
      (w'.calls k).commandRef = (w.calls k).commandRef ∧ (w'.calls k).staticRef = (w.calls k).staticRef := by
    intro k
    have hk := Prod.mk.inj (hid k)
    have hk' := Prod.mk.inj hk.2
    exact ⟨hk.1, hk'.1, hk'.2⟩
  constructor
  · intro p hp
    rw [(hfields p.call).1]
    exact hi.pending p (hpending p hp)
  · intro k r hr
    have hk := hi.answered k r (hfuture k r hr)
    rw [(hfields k).1, (hfields k).2.1, (hfields k).2.2]
    exact hk

theorem modifyCall (hi : RightAnswers w) (call : Nat) {f : Call → Call}
    (hid : ∀ c, (f c).identity = c.identity)
    (hfuture : ∀ c r, (f c).future = .answered r → c.future = .answered r) :
    RightAnswers (w.modifyCall call f) := by
  refine hi.update (fun p hp => hp) ?_ ?_
  · intro k
    by_cases hk : k = call
    · subst hk
      simpa [World.modifyCall] using hid _
    · simp [World.modifyCall, hk]
  · intro k r hr
    by_cases hk : k = call
    · subst hk
      exact hfuture _ r (by simpa [World.modifyCall] using hr)
    · simpa [World.modifyCall, hk] using hr

theorem issue (hi : RightAnswers w) (hlast : ∀ p, w.session.pending = some p → p.call ≠ w.issued)
    (commandId : CommandId) (refs : CommandRefCounter) : RightAnswers (w.issue commandId refs) := by
  constructor
  · intro p hp
    have hold : w.session.pending = some p := hp
    simpa [World.issue, hlast p hold] using hi.pending p hold
  · intro k r hr
    by_cases hk : k = w.issued
    · simp [World.issue, hk, Call.issued] at hr
    · simp only [World.issue, Function.update_of_ne hk] at hr ⊢
      exact hi.answered k r hr

theorem move {reopens : Prop} (hm : Move config reopens (w, h) (w', h')) (hflight : Flight config w h)
    (hi : RightAnswers w) : RightAnswers w' := by
  have hlast : ∀ p, w.session.pending = some p → p.call ≠ w.issued := by
    intro p hp
    have hp' := hflight.last p hp
    omega
  cases hm with
  | quiet hq =>
    have hpending : ∀ p, w'.session.pending = some p → w.session.pending = some p :=
      fun p hp => hq.pending ▸ hp
    exact hi.update hpending (fun k => by rw [hq.calls]) (fun k r hr => by rwa [hq.calls] at hr)
  | begin commandId ht hs hrefs =>
    have hissue := hi.issue hlast commandId
    constructor
    · intro p hp
      obtain rfl := Option.some.inj hp
      simp [World.setPending, World.issue, Call.issued]
    · exact (hissue _).answered
  | refuse commandId ht hs hrefs =>
    have hissue := hi.issue hlast commandId
    refine (hissue _).modifyCall _ (fun _ => rfl) ?_
    exact fun c r hr => OwnAnswers.isWaiting_ite (by simp) hr
  | written ht => exact hi.modifyCall _ (fun _ => rfl) (fun c r hr => hr)
  | settle call hf =>
    refine hi.modifyCall _ (fun _ => rfl) ?_
    exact fun c r hr => OwnAnswers.isWaiting_ite hf hr
  | @finish w h t call ending ht =>
    let cleared : World := { w with session := { w.session with
      pending := none, readyAt := w.endReadyAt config call ending } }
    have hcleared : RightAnswers cleared :=
      hi.update (fun p hp => by simp [cleared] at hp) (fun k => rfl) (fun k r hr => hr)
    refine hcleared.modifyCall _ (fun _ => rfl) ?_
    exact fun c r hr => OwnAnswers.isWaiting_ite (by simp) hr
  | connected | take | pause | ready | wake | leave | startReading | gotRevision | stopReading
  | close | stopClosing | tick =>
    exact hi.update (fun p hp => hp) (fun k => rfl) (fun k r hr => hr)

theorem complete {data : Bytes} {origin : Option Nat} {w₁ : World} {p : Pending} {r : Response}
    (hi : RightAnswers w₁) (hflight : Flight config w₁ h) (hq : Quiet w w₁) (hc : Completes w data r p) :
    RightAnswers (w₁.complete p.call origin r) := by
  have hp : w₁.session.pending = some p := hq.pending.trans hc.pending
  have hid := hi.pending p hp
  have hsame := hflight.same p hp
  constructor
  · intro p' hp'
    have heq : p' = p := Option.some.inj (hp'.symm.trans hp)
    subst heq
    simpa [World.complete, World.modifyCall] using hid
  · intro k r' hr
    by_cases hk : k = p.call
    · subst hk
      simp only [World.complete, World.modifyCall, Function.update_self] at hr ⊢
      obtain rfl := Future.answered.inj hr
      rw [hsame.1, hsame.2, hid]
      exact ⟨hc.ref, hc.id⟩
    · simp only [World.complete, World.modifyCall, Function.update_of_ne hk] at hr ⊢
      exact hi.answered k r' hr

theorem step {l : Label} (hflight : Flight config w w.hold) (hi : RightAnswers w)
    (hs : w.step config prim l = some w') : RightAnswers w' := by
  have hboth : Flight config w' w'.hold ∧ RightAnswers w' := by
    refine step_preserves (I := fun v h => Flight config v h ∧ RightAnswers v) ?_ ?_ ⟨hflight, hi⟩ hs
    · intro v v' h h' hm hv
      exact ⟨hv.1.move hm, hv.2.move hm hv.1⟩
    · intro data origin w₁ p r hl hq hc hv
      exact ⟨hv.1.complete hc.pending hq, hv.2.complete hv.1 hq hc⟩
  exact hboth.2

theorem reachable {ls : List Label} (hr : exec (World.step config prim) (.new config) ls = some w) :
    RightAnswers w := by
  have hinv : Flight config w w.hold ∧ RightAnswers w := by
    refine exec_invariant (I := fun w => Flight config w w.hold ∧ RightAnswers w) ?_
      ⟨Flight.init, init config⟩ hr
    intro v l v' hv hs
    exact ⟨hv.1.step hs, hv.2.step hv.1 hs⟩
  exact hinv.2

end RightAnswers

/-! The classification. -/

/-- A success with the command's id is returned, a failure with the command's
id is the lock's refusal, and any other id is a protocol error. -/
structure Classified (commandId : CommandId) (r : Response) (result : Except Exn (Option Response)) :
    Prop where
  returned : result = .ok (some r) ↔
    r.responseId = expectedResponseId commandId ∧ r.status = statusSuccess
  refused : (∃ status command, result = .error (.ble (.operation status command))) ↔
    r.responseId = expectedResponseId commandId ∧ r.status ≠ statusSuccess
  foreign : r.responseId ≠ expectedResponseId commandId → ∃ e, result = .error (.ble (.protocol e))

/-- The turn in which `send` takes the answer up: nothing else is thrown into
it, and nothing is left to write. -/
structure TakesAnswer (w : World) (tid : TaskId) (command : CommandPayload) (call : Nat) (r : Response) :
    Prop where
  uninterrupted : w.interrupts tid = none
  waits : w.tasks tid = some (.exchanging .send command (.answering call)) ∨
    w.tasks tid = some (.exchanging .send command (.writing call []))
  answered : (w.calls call).future = .answered r

def sendResult (commandId : CommandId) (r : Response) : Except Exn (Option Response) :=
  (liftBle (checkAnswer commandId r)).map some

theorem sendResult_success {commandId : CommandId} {r : Response}
    (hid : r.responseId = expectedResponseId commandId) (hs : r.status = statusSuccess) :
    sendResult commandId r = .ok (some r) := by
  have hok : r.ok = true := by simp [Response.ok, hs]
  simp [sendResult, checkAnswer, Response.raiseForStatus, hok, hid, Except.map]

/-- The status is looked at first, whatever command it belongs to. -/
theorem sendResult_failure {commandId : CommandId} {r : Response} (hs : r.status ≠ statusSuccess) :
    sendResult commandId r = .error (.ble (.operation r.status r.responseId)) := by
  have hok : r.ok = false := by simp [Response.ok, hs]
  simp [sendResult, checkAnswer, Response.raiseForStatus, hok, errorForStatus, hs, Except.map]

theorem sendResult_foreign {commandId : CommandId} {r : Response}
    (hid : r.responseId ≠ expectedResponseId commandId) (hs : r.status = statusSuccess) :
    ∃ e, sendResult commandId r = .error (.ble (.protocol e)) := by
  have hok : r.ok = true := by simp [Response.ok, hs]
  simp [sendResult, checkAnswer, Response.raiseForStatus, hok, hid, Except.map]

theorem classified_iff (commandId : CommandId) (r : Response) :
    Classified commandId r (sendResult commandId r) ↔
      r.responseId = expectedResponseId commandId ∨ r.status = statusSuccess := by
  by_cases hid : r.responseId = expectedResponseId commandId
  · refine ⟨fun _ => Or.inl hid, fun _ => ?_⟩
    by_cases hs : r.status = statusSuccess
    · have hresult := sendResult_success hid hs
      rw [hresult]
      exact ⟨by simp [hid, hs], by simp [hs], fun hne => absurd hid hne⟩
    · have hresult : sendResult commandId r = .error (.ble (.operation r.status r.responseId)) :=
        sendResult_failure hs
      rw [hresult]
      exact ⟨by simp [hs], by simp [hid, hs], fun hne => absurd hid hne⟩
  · by_cases hs : r.status = statusSuccess
    · refine ⟨fun _ => Or.inr hs, fun _ => ?_⟩
      obtain ⟨e, hresult⟩ := sendResult_foreign hid hs
      rw [hresult]
      exact ⟨by simp [hid], by simp [hid], fun _ => ⟨e, rfl⟩⟩
    · constructor
      · intro hclass
        obtain ⟨e, he⟩ := hclass.foreign hid
        rw [sendResult_failure hs] at he
        cases he
      · intro h
        exact absurd h (by simp [hid, hs])

section

variable {config : SessionConfig} {prim : Primitives} {w : World} {tid : TaskId} {command : CommandPayload}
variable {call : Nat} {r : Response}

theorem awaitAnswer_of_answered (h : (w.calls call).future = .answered r) :
    w.awaitAnswer config command call =
      (w.endCall call .answered (w.now + config.commandDelay)).leave
        (liftBle (checkAnswer command.commandId r)) := by
  unfold World.awaitAnswer
  rw [h]

theorem step_of_ended {await : Await} {raw : Bytes} {out : World × Progress} {result : Except Exn Response}
    (hint : w.interrupts tid = none) (ht : w.tasks tid = some (.exchanging .send command await))
    (hout : (w.consumeInterrupt tid).resumeExchange config tid command (.returned raw) await = some out)
    (hended : out.2 = .ended result) :
    ∃ w', w.step config prim (.resume tid (.returned raw)) = some w' ∧
      w'.tasks tid = some (.finished (result.map some)) := by
  obtain ⟨w₁, progress⟩ := out
  obtain rfl : progress = .ended result := hended
  have hstep : w.step config prim (.resume tid (.returned raw)) = some (w₁.finish tid (result.map some)) := by
    simp only [World.step, World.resume, ht, hint, Option.bind_some, World.resumeTask, Option.isSome_none,
      Bool.false_eq_true, if_false, hout, Option.map_some]
    rfl
  exact ⟨_, hstep, by simp [World.finish, World.setTask]⟩

theorem TakesAnswer.step (h : TakesAnswer w tid command call r) (raw : Bytes) :
    ∃ w', w.step config prim (.resume tid (.returned raw)) = some w' ∧
      w'.tasks tid = some (.finished (sendResult command.commandId r)) := by
  have hanswered : ((w.consumeInterrupt tid).calls call).future = .answered r := h.answered
  rcases h.waits with hwaits | hwaits
  · have hdone : ((w.consumeInterrupt tid).calls call).future.isWaiting = false := by
      rw [hanswered]
      rfl
    have hout : (w.consumeInterrupt tid).resumeExchange config tid command (.returned raw)
        (.answering call) =
        some ((w.consumeInterrupt tid).awaitAnswer config command call) := by
      simp [World.resumeExchange, hdone]
    refine step_of_ended h.uninterrupted hwaits hout ?_
    rw [awaitAnswer_of_answered hanswered]
    rfl
  · let written := (w.consumeInterrupt tid).modifyCall call (fun c => { c with written := true })
    have hwritten : (written.calls call).future = .answered r := by
      simpa [written, World.modifyCall] using hanswered
    have hout : (w.consumeInterrupt tid).resumeExchange config tid command (.returned raw)
        (.writing call []) = some (written.awaitAnswer config command call) := rfl
    refine step_of_ended h.uninterrupted hwaits hout ?_
    rw [awaitAnswer_of_answered hwritten]
    rfl

end

/-- In every run, a `send` whose future an answer has completed ends in the turn
that takes it up. Its result fits the answer's id and status unless both are
wrong, which the static reference rules out. -/
theorem send_classifies_iff (config : SessionConfig) (prim : Primitives) {ls : List Label} {w : World}
    (hr : exec (World.step config prim) (.new config) ls = some w) {tid : TaskId}
    {command : CommandPayload} {call : Nat} {r : Response} (ht : TakesAnswer w tid command call r)
    (raw : Bytes) :
    ∃ w' result, w.step config prim (.resume tid (.returned raw)) = some w' ∧
      w'.tasks tid = some (.finished result) ∧
      (Classified command.commandId r result ↔
        r.responseId = expectedResponseId command.commandId ∨ r.status = statusSuccess) ∧
      r.commandRef = (w.calls call).commandRef ∧
      ((w.calls call).staticRef = true → Classified command.commandId r result) := by
  have hturn : ∃ w', w.step config prim (.resume tid (.returned raw)) = some w' ∧
      w'.tasks tid = some (.finished (sendResult command.commandId r)) := ht.step raw
  obtain ⟨w', hstep, hresult⟩ := hturn
  have hanswered := (RightAnswers.reachable hr).answered call r ht.answered
  have hframed := (Secret.reachable hr).tasks tid .send command
  have hid : (w.calls call).commandId = command.commandId := by
    rcases ht.waits with hwaits | hwaits
    · have hflies : Flies w command call [] := (hframed _ hwaits).1
      exact hflies.commandId
    · have hflies : Flies w command call [] := (hframed _ hwaits).1
      exact hflies.commandId
  have hclass := classified_iff command.commandId r
  have hstatic : (w.calls call).staticRef = true →
      Classified command.commandId r (sendResult command.commandId r) := by
    intro hs
    have hexpected := hanswered.2 hs
    rw [hid] at hexpected
    exact hclass.mpr (Or.inl hexpected)
  exact ⟨w', _, hstep, hresult, hclass, hanswered.1, hstatic⟩

/-! A login on firmware 4.8.0 whose UserAuthBegin is answered by DeviceLogGet
with SECURITY_ERROR, under the reference of the login. -/

/-- Blocks under one key, known from elsewhere. Every other block is left as it is. -/
def Primitives.knownBlocks (key : Bytes) (table : List (Bytes × Bytes))
    (hlength : ∀ entry ∈ table, entry.1.length = aesBlockSize ∧ entry.2.length = aesBlockSize) : Primitives :=
  have hfound : ∀ (p : Bytes × Bytes → Bool) (f : Bytes × Bytes → Bytes),
      (∀ entry ∈ table, (f entry).length = aesBlockSize) → ∀ block : Bytes, block.length = aesBlockSize →
        (((table.find? p).map f).getD block).length = aesBlockSize := by
    intro p f hf block hblock
    cases hfind : table.find? p with
    | none => exact hblock
    | some entry => exact hf entry (List.mem_of_find?_eq_some hfind)
  { Primitives.scalarOne with
    encryptBlock := fun k block =>
      ((table.find? (fun entry => k == key && entry.1 == block)).map Prod.snd).getD block
    decryptBlock := fun k block =>
      ((table.find? (fun entry => k == key && entry.2 == block)).map Prod.fst).getD block
    encryptBlock_length := fun _ block h => hfound _ _ (fun entry he => (hlength entry he).2) block h
    decryptBlock_length := fun _ block h => hfound _ _ (fun entry he => (hlength entry he).1) block h }

/-- AES-128 on the blocks of that login, under the link keys of a lock with the scalar 1. -/
def Primitives.aesLogin : Primitives :=
  .knownBlocks
    [0x96, 0xC2, 0x98, 0xD8, 0x45, 0x39, 0xA1, 0xF4, 0xA0, 0x33, 0xEB, 0x2D, 0x81, 0x7D, 0x03, 0x77]
    [([0x90, 0x40, 0xA6, 0x63, 0xE5, 0xE6, 0xBC, 0xF8, 0x47, 0x42, 0x2C, 0xE1, 0xF2, 0xD1, 0x17, 0x6B],
        [0x4A, 0xCC, 0x80, 0x93, 0x5C, 0x42, 0x64, 0xA7, 0x3A, 0xAE, 0x5E, 0x6B, 0xA2, 0x16, 0x46, 0x20]),
      ([0x90, 0x41, 0xA6, 0x63, 0xC4, 0xE6, 0xBC, 0xF8, 0x47, 0x42, 0x2C, 0xE1, 0xF2, 0xD1, 0x17, 0x6B],
        [0x49, 0xEA, 0x04, 0x02, 0xB7, 0xF5, 0x44, 0x39, 0xDA, 0xC9, 0x60, 0xCC, 0x74, 0x82, 0xC5, 0x0E]),
      ([0xD0, 0x47, 0xA7, 0x63, 0xE5, 0xE6, 0xBC, 0xF8, 0x47, 0x42, 0x2C, 0xE1, 0xF2, 0xD1, 0x17, 0x6B],
        [0x49, 0x2E, 0xDE, 0x7A, 0x1D, 0x7C, 0x18, 0x13, 0xF7, 0x66, 0x38, 0x47, 0x59, 0xFA, 0x11, 0x37]),
      ([0xB6, 0x40, 0xA7, 0x69, 0xE5, 0xE6, 0xBC, 0xF8, 0x47, 0x42, 0x2C, 0xE1, 0xF2, 0xD1, 0x17, 0x6B],
        [0xCE, 0x7A, 0x9D, 0x2D, 0xCC, 0x4A, 0xFF, 0xFA, 0x23, 0x7B, 0xF0, 0x9A, 0x86, 0x41, 0xAD, 0x8B])]
    (by decide)

namespace ForeignAnswer

def loginBegin : CommandPayload := ⟨.userAuthBegin, List.replicate 7 0⟩

def logRefused : Response := ⟨CommandId.deviceLogGet.value, 3, statusSecurityError, []⟩

def labels : List Label :=
  CounterRun.labels ++
    [.resume 0 (.returned []),
      .notify [2, 16, 0, 1, 0x49, 0xEA, 0x04, 0x02, 0xB7, 0xF5, 0x44, 0x39, 0xDA, 0xC9, 0x60, 0xCC, 0x74,
        0x82, 0xC5, 0x0E] (some 1),
      .resume 0 (.returned []), .send 1 loginBegin false, .tick 320, .resume 1 (.returned []),
      .notify [2, 16, 0, 1, 0xCE, 0x7A, 0x9D, 0x2D, 0xCC, 0x4A, 0xFF, 0xFA, 0x23, 0x7B, 0xF0, 0x9A, 0x86,
        0x41, 0xAD, 0x8B] none]

/-- What the run leaves of the login's task and call. -/
def loginState (w : World) : Bool :=
  (w.interrupts 1).isNone && decide ((w.calls 2).future = .answered logRefused) &&
    (w.calls 2).staticRef == false &&
    match w.tasks 1 with
    | some (.exchanging .send command (.writing call [])) => command == loginBegin && call == 2
    | _ => false

theorem takesAnswer_of_loginState {w : World} (h : loginState w = true) :
    TakesAnswer w 1 loginBegin 2 logRefused := by
  simp only [loginState, Bool.and_eq_true, decide_eq_true_eq] at h
  obtain ⟨⟨⟨hint, hanswered⟩, -⟩, htask⟩ := h
  refine ⟨Option.isNone_iff_eq_none.mp hint, Or.inr ?_, hanswered⟩
  split at htask
  · rename_i command call hw
    simp only [Bool.and_eq_true, beq_iff_eq] at htask
    rw [hw, htask.1, htask.2]
  · cases htask

theorem exists_run : ∃ w, exec (World.step .scalarOne .aesLogin) (.new .scalarOne) labels = some w ∧
    loginState w = true := by
  have hend : (exec (World.step .scalarOne .aesLogin) (.new .scalarOne) labels).map loginState =
      some true := by decide +kernel
  obtain ⟨w, hw, heq⟩ := Option.map_eq_some_iff.mp hend
  exact ⟨w, hw, heq⟩

end ForeignAnswer

open ForeignAnswer in
theorem send_classifies_iff_login : ∃ w w' result,
    exec (World.step .scalarOne .aesLogin) (.new .scalarOne) labels = some w ∧
      w.step .scalarOne .aesLogin (.resume 1 (.returned [])) = some w' ∧
      w'.tasks 1 = some (.finished result) ∧
      (Classified loginBegin.commandId logRefused result ↔
        logRefused.responseId = expectedResponseId loginBegin.commandId ∨
          logRefused.status = statusSuccess) := by
  obtain ⟨w, hw, hstate⟩ := exists_run
  obtain ⟨w', result, hstep, hresult, hclass, -⟩ :=
    send_classifies_iff .scalarOne .aesLogin hw (takesAnswer_of_loginState hstate) []
  exact ⟨w, w', result, hw, hstep, hresult, hclass⟩

open ForeignAnswer in
/-- The login ends with SECURITY_ERROR, though the answer is not to it. -/
theorem login_takes_foreign_failure : ∃ w w',
    exec (World.step .scalarOne .aesLogin) (.new .scalarOne) labels = some w ∧
      TakesAnswer w 1 loginBegin 2 logRefused ∧
      w.step .scalarOne .aesLogin (.resume 1 (.returned [])) = some w' ∧
      w'.tasks 1 = some (.finished (.error (.ble (.operation 10 0x44)))) ∧
      ¬ Classified loginBegin.commandId logRefused (.error (.ble (.operation 10 0x44))) := by
  obtain ⟨w, hw, hstate⟩ := exists_run
  have htakes := takesAnswer_of_loginState hstate
  have hturn : ∃ w', w.step .scalarOne .aesLogin (.resume 1 (.returned [])) = some w' ∧
      w'.tasks 1 = some (.finished (sendResult loginBegin.commandId logRefused)) := htakes.step []
  obtain ⟨w', hstep, hresult⟩ := hturn
  have hvalue : sendResult loginBegin.commandId logRefused = .error (.ble (.operation 10 0x44)) :=
    sendResult_failure (by decide)
  have hclass := classified_iff loginBegin.commandId logRefused
  rw [hvalue] at hresult hclass
  have hcondition : ¬ (logRefused.responseId = expectedResponseId loginBegin.commandId ∨
      logRefused.status = statusSuccess) := by decide
  exact ⟨w, w', hw, htakes, hstep, hresult, fun h => hcondition (hclass.mp h)⟩

end OnestiLock
