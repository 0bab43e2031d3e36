import OnestiLock.SessionMoves

/-! Whole turns of the event loop as moves. -/

namespace OnestiLock

/-- The response with which this turn would complete `connect`: the answer to
its last exchange, accepted. -/
def ConnectAccepts (config : SessionConfig) (prim : Primitives) (caller : Caller)
    (command : CommandPayload) (r : Response) : Prop :=
  match caller with
  | .send => False
  | .connectKey firmware => firmware.lt minFirmwareAdmin = true ∧
      ∃ answer keys, checkAnswer command.commandId r = .ok answer ∧
        linkKeysOf config prim answer = .ok keys
  | .connectModel => ∃ answer model, checkAnswer command.commandId r = .ok answer ∧
      parseDeviceModel answer = .ok model

/-- `connect` resumes from its last exchange with an accepted answer. -/
def ConnectCompletes (config : SessionConfig) (prim : Primitives) (w : World) (l : Label) : Prop :=
  ∃ tid reply caller command await call r, l = .resume tid reply ∧
    w.tasks tid = some (.exchanging caller command await) ∧ w.interrupts tid = none ∧
    (await = .answering call ∨ await = .writing call [] ∧ ∃ raw, reply = .returned raw) ∧
    (w.calls call).future = .answered r ∧ ConnectAccepts config prim caller command r

def Reopens (config : SessionConfig) (prim : Primitives) (w : World) (l : Label) : Prop :=
  w.session.state = .closed ∧ ConnectCompletes config prim w l

theorem leave_not_ok {w : World} {e : Exn} {r : Response} :
    (w.leave (.error e)).2 ≠ .ended (.ok r) := by
  simp [World.leave]

section

variable {config : SessionConfig} {w : World}

theorem writeNext_not_ok {call : Nat} (command : CommandPayload) (frames : List Bytes) (r : Response)
    (hw : (w.calls call).future = .waiting) :
    (w.writeNext config command call frames).2 ≠ .ended (.ok r) := by
  cases frames with
  | nil =>
    have hw' : ((w.modifyCall call (fun c => { c with written := true })).calls call).future = .waiting := by
      simpa [World.modifyCall] using hw
    simp [World.writeNext, World.awaitAnswer, hw']
  | cons frame rest => simp [World.writeNext]

theorem begin_not_ok (command : CommandPayload) (r : Response) :
    (w.begin config command).2 ≠ .ended (.ok r) := by
  unfold World.begin
  split_ifs with hc
  · exact leave_not_ok
  · split
    · exact leave_not_ok
    · simp only
      split
      · exact leave_not_ok
      · refine writeNext_not_ok command _ r ?_
        simp [World.setPending, World.issue, Call.issued]

theorem afterAcquire_not_ok (command : CommandPayload) (r : Response) :
    (w.afterAcquire config command).2 ≠ .ended (.ok r) := by
  unfold World.afterAcquire
  split_ifs with hs ha hr
  · exact leave_not_ok
  · exact leave_not_ok
  · simp
  · exact begin_not_ok command r

theorem exchange_not_ok (tid : TaskId) (command : CommandPayload) (r : Response) :
    (w.exchange config tid command).2 ≠ .ended (.ok r) := by
  unfold World.exchange
  split
  · exact afterAcquire_not_ok command r
  · simp

theorem interruptExchange_not_ok (tid : TaskId) (command : CommandPayload) (interrupt : Interrupt)
    (await : Await) (r : Response) :
    (w.interruptExchange config tid command interrupt await).2 ≠ .ended (.ok r) := by
  cases await <;> cases interrupt <;> simp [World.interruptExchange, World.timedOut, World.leave]

theorem awaitAnswer_ok {call : Nat} {command : CommandPayload} {answer : Response}
    (h : (w.awaitAnswer config command call).2 = .ended (.ok answer)) :
    ∃ r, (w.calls call).future = .answered r ∧ checkAnswer command.commandId r = .ok answer := by
  unfold World.awaitAnswer at h
  split at h
  · simp at h
  · rename_i r hf
    refine ⟨r, hf, ?_⟩
    cases hc : checkAnswer command.commandId r with
    | error e => simp [World.leave, hc, liftBle] at h
    | ok a => simpa [World.leave, hc, liftBle] using h
  · exact absurd h leave_not_ok
  · exact absurd h leave_not_ok

theorem resumeExchange_ok {tid : TaskId} {command : CommandPayload} {reply : Reply} {await : Await}
    {out : World × Progress} {answer : Response}
    (hout : w.resumeExchange config tid command reply await = some out)
    (hok : out.2 = .ended (.ok answer)) :
    ∃ call r, (await = .answering call ∨ await = .writing call [] ∧ ∃ raw, reply = .returned raw) ∧
      (w.calls call).future = .answered r ∧ checkAnswer command.commandId r = .ok answer := by
  cases await with
  | acquiring =>
    simp only [World.resumeExchange, Option.map_eq_some_iff] at hout
    obtain ⟨lock, _, rfl⟩ := hout
    exact absurd hok (afterAcquire_not_ok command answer)
  | pausing wake =>
    simp only [World.resumeExchange] at hout
    split_ifs at hout
    obtain rfl := Option.some.inj hout
    unfold World.afterPause at hok
    split_ifs at hok
    · exact absurd hok leave_not_ok
    · exact absurd hok (begin_not_ok command answer)
  | writing call rest =>
    cases reply with
    | raised e =>
      obtain rfl := Option.some.inj hout
      exact absurd hok leave_not_ok
    | returned raw =>
      obtain rfl := Option.some.inj hout
      cases rest with
      | cons frame rest => simp [World.writeNext] at hok
      | nil =>
        obtain ⟨r, hf, hc⟩ := awaitAnswer_ok hok
        refine ⟨call, r, .inr ⟨rfl, raw, rfl⟩, ?_, hc⟩
        simpa [World.modifyCall] using hf
  | answering call =>
    simp only [World.resumeExchange] at hout
    split_ifs at hout
    obtain rfl := Option.some.inj hout
    obtain ⟨r, hf, hc⟩ := awaitAnswer_ok hok
    exact ⟨call, r, .inl rfl, hf, hc⟩

end

section

variable {config : SessionConfig} {reopens : Prop} {w w' : World} {t : TaskId}

theorem setTask_moves {task : Coroutine}
    (hm : Moves config reopens (w, w.hold) (w', Function.update w.hold t task.hold))
    (ht : w'.tasks = w.tasks) :
    Moves config reopens (w, w.hold) (w'.setTask t task, (w'.setTask t task).hold) := by
  rw [World.hold_setTask, World.hold_congr ht]
  exact hm.tail (.quiet (.setTask _ _ _))

theorem failPending_moves (message : String) {h : TaskId → Hold} :
    Moves config reopens (w, h) (w.failPending message, h) := by
  unfold World.failPending
  split
  · exact .refl
  · exact .single (.settle _ (by simp))

theorem failPending_tasks (message : String) : (w.failPending message).tasks = w.tasks := by
  unfold World.failPending
  split <;> rfl

theorem closeSession_moves {h : TaskId → Hold} :
    Moves config reopens (w, h) (w.closeSession, h) := by
  let closed : World := { w with session := { w.session with state := .closed } }
  have hq : Quiet w closed := ⟨rfl, rfl, rfl, rfl, rfl, rfl, rfl, rfl, by simp [closed], fun _ => rfl⟩
  exact .trans (.single (.quiet hq)) (failPending_moves _)

theorem failPending_state (message : String) :
    (w.failPending message).session.state = w.session.state := by
  unfold World.failPending
  split <;> rfl

theorem closing_moves {task : Coroutine} (htask : task.hold = .closing)
    (hm : Moves config reopens (w, w.hold) (w', Function.update w.hold t .outside))
    (ht : w'.tasks = w.tasks) :
    Moves config reopens (w, w.hold)
      (w'.closeSession.setTask t task, (w'.closeSession.setTask t task).hold) := by
  have hm := hm.trans closeSession_moves
  have hs : w'.closeSession.session.state = .closed := failPending_state _
  have hclose := hm.tail (.close (Function.update_self ..) hs)
  rw [Function.update_idem, ← htask] at hclose
  exact setTask_moves hclose ((failPending_tasks _).trans ht)

theorem failConnect_moves (e : Exn)
    (hm : Moves config reopens (w, w.hold) (w', Function.update w.hold t .outside))
    (ht : w'.tasks = w.tasks) :
    Moves config reopens (w, w.hold) (w'.failConnect t e, (w'.failConnect t e).hold) :=
  closing_moves rfl hm ht

theorem finishConnect_moves (hc : w'.session.state = .closed → reopens)
    (hm : Moves config reopens (w, w.hold) (w', Function.update w.hold t .outside))
    (ht : w'.tasks = w.tasks) :
    Moves config reopens (w, w.hold) (w'.finishConnect t, (w'.finishConnect t).hold) :=
  setTask_moves (hm.tail (.connected hc)) ht

theorem sendProgress_moves (command : CommandPayload) {out : World × Progress}
    (hr : Runs config reopens w w.hold t out) :
    Moves config reopens (w, w.hold)
      (World.sendProgress t command out, (World.sendProgress t command out).hold) := by
  obtain ⟨w', await | result⟩ := out
  · exact setTask_moves hr.moves hr.tasks
  · exact setTask_moves hr.moves hr.tasks

theorem modelProgress_moves {out : World × Progress} (hr : Runs config reopens w w.hold t out)
    (hc : ∀ answer model, out.2 = .ended (.ok answer) → parseDeviceModel answer = .ok model →
      w.session.state = .closed → reopens) :
    Moves config reopens (w, w.hold)
      (World.modelProgress t out, (World.modelProgress t out).hold) := by
  obtain ⟨w', await | result⟩ := out
  · exact setTask_moves hr.moves hr.tasks
  · cases result with
    | error e => exact failConnect_moves e hr.moves hr.tasks
    | ok answer =>
      cases hp : parseDeviceModel answer with
      | error e => simpa only [World.modelProgress, ok_bind, hp, liftBle_error] using failConnect_moves _ hr.moves hr.tasks
      | ok model =>
        let modelled : World := { w' with session := { w'.session with model := some model } }
        have hq : Moves config reopens (w, w.hold) (modelled, Function.update w.hold t .outside) :=
          hr.moves.tail (.quiet ⟨rfl, rfl, rfl, rfl, rfl, rfl, rfl, rfl, id, id⟩)
        have hc' : modelled.session.state = .closed → reopens :=
          fun hs => hc answer model rfl hp (hr.state.symm.trans hs)
        simpa only [World.modelProgress, ok_bind, hp, liftBle_ok] using
          finishConnect_moves hc' hq hr.tasks

theorem keyProgress_moves {prim : Primitives} {firmware : FirmwareVersion} (command : CommandPayload)
    {out : World × Progress} (hr : Runs config reopens w w.hold t out)
    (hc : ∀ answer keys, out.2 = .ended (.ok answer) → linkKeysOf config prim answer = .ok keys →
      firmware.lt minFirmwareAdmin = true → w.session.state = .closed → reopens) :
    Moves config reopens (w, w.hold)
      (World.keyProgress config prim t firmware command out,
        (World.keyProgress config prim t firmware command out).hold) := by
  obtain ⟨w', await | result⟩ := out
  · exact setTask_moves hr.moves hr.tasks
  · cases result with
    | error e => exact failConnect_moves e hr.moves hr.tasks
    | ok answer =>
      cases hk : linkKeysOf config prim answer with
      | error e => simpa only [World.keyProgress, ok_bind, hk] using failConnect_moves e hr.moves hr.tasks
      | ok keys =>
        have hq : Moves config reopens (w, w.hold)
            (w'.setLinkKeys prim keys, Function.update w.hold t .outside) :=
          hr.moves.tail (.quiet ⟨rfl, rfl, rfl, rfl, rfl, rfl, rfl, rfl, id, id⟩)
        by_cases hf : firmware.lt minFirmwareAdmin = true
        · have hc' : (w'.setLinkKeys prim keys).session.state = .closed → reopens :=
            fun hs => hc answer keys rfl hk hf (hr.state.symm.trans hs)
          simpa only [World.keyProgress, ok_bind, hk, hf, if_true] using
            finishConnect_moves hc' hq hr.tasks
        · have hx : Runs config reopens w w.hold t
              ((w'.setLinkKeys prim keys).exchange config t deviceModelGet) :=
            .after hq hr.tasks hr.state (exchange_runs deviceModelGet (Function.update_self ..))
          have hm := modelProgress_moves hx
            (fun answer _ hok _ => absurd hok (exchange_not_ok t deviceModelGet answer))
          simpa only [World.keyProgress, ok_bind, hk, hf, Bool.false_eq_true, if_false] using hm

theorem interrupt_moves (i : Interrupt) :
    Moves config reopens (w, w.hold) (w.interrupt t i, (w.interrupt t i).hold) := by
  let thrown : World := { w with interrupts := Function.update w.interrupts t (some i) }
  have hq : Moves config reopens (w, w.hold) (thrown, w.hold) :=
    .single (.quiet ⟨rfl, rfl, rfl, rfl, rfl, rfl, rfl, rfl, id, id⟩)
  have hh : (w.interrupt t i).hold = w.hold := by
    refine World.hold_congr ?_
    simp only [World.interrupt]
    split <;> rfl
  rw [hh]
  simp only [World.interrupt]
  split
  · exact hq.tail (.quiet (withLock_quiet FifoLock.holder_cancelWait))
  · exact hq.tail (.settle _ (by simp))
  · exact hq

end

section

variable {config : SessionConfig} {prim : Primitives} {reopens : Prop} {w w' : World} {t : TaskId}

theorem finish_moves (result : Except Exn (Option Response))
    (hm : Moves config reopens (w, w.hold) (w', Function.update w.hold t .outside))
    (ht : w'.tasks = w.tasks) :
    Moves config reopens (w, w.hold) (w'.finish t result, (w'.finish t result).hold) :=
  setTask_moves hm ht

theorem outside_moves (ht : w.hold t = .outside) :
    Moves config reopens (w, w.hold) (w, Function.update w.hold t .outside) := by
  rw [← ht, Function.update_eq_self]

theorem startConnect_moves (ht : w.hold t = .outside) :
    Moves config reopens (w, w.hold) (w.startConnect t, (w.startConnect t).hold) := by
  unfold World.startConnect
  split_ifs with hs
  · exact setTask_moves (.single (.startReading hs ht)) rfl
  · exact finish_moves _ (outside_moves ht) rfl

theorem gotRevision_moves (raw : Bytes) (ht : w.hold t = .reading) :
    Moves config reopens (w, w.hold) (w.gotRevision t raw, (w.gotRevision t raw).hold) := by
  have hstop : Moves config reopens (w, w.hold) (w, Function.update w.hold t .outside) :=
    .single (.stopReading ht)
  unfold World.gotRevision
  split
  · exact failConnect_moves _ hstop rfl
  · split_ifs
    · exact failConnect_moves _ hstop rfl
    · exact setTask_moves (.single (.gotRevision _ ht)) rfl

theorem subscribed_moves (firmware : FirmwareVersion) (ht : w.hold t = .outside) :
    Moves config reopens (w, w.hold)
      (w.subscribed config prim t firmware, (w.subscribed config prim t firmware).hold) := by
  unfold World.subscribed
  split
  · exact failConnect_moves _ (outside_moves ht) rfl
  · exact keyProgress_moves _ (exchange_runs _ ht)
      (fun answer _ hok => absurd hok (exchange_not_ok t _ answer))

theorem startSend_moves (command : CommandPayload) (skipAppGates : Bool) (ht : w.hold t = .outside) :
    Moves config reopens (w, w.hold)
      (w.startSend config t command skipAppGates, (w.startSend config t command skipAppGates).hold) := by
  unfold World.startSend
  split_ifs
  · split
    · exact finish_moves _ (outside_moves ht) rfl
    · simp only
      split_ifs
      · exact finish_moves _ (outside_moves ht) rfl
      · exact sendProgress_moves command (exchange_runs command ht)
  · exact finish_moves _ (outside_moves ht) rfl

theorem progress_moves {caller : Caller} (command : CommandPayload) {out : World × Progress}
    (hr : Runs config reopens w w.hold t out)
    (hc : ∀ answer, out.2 = .ended (.ok answer) →
      (∃ firmware keys, caller = .connectKey firmware ∧ firmware.lt minFirmwareAdmin = true ∧
        linkKeysOf config prim answer = .ok keys) ∨
      (∃ model, caller = .connectModel ∧ parseDeviceModel answer = .ok model) →
      w.session.state = .closed → reopens) :
    Moves config reopens (w, w.hold)
      (World.progress config prim t caller command out,
        (World.progress config prim t caller command out).hold) := by
  cases caller with
  | send => exact sendProgress_moves command hr
  | connectKey firmware =>
    exact keyProgress_moves command hr
      (fun answer keys hok hk hf => hc answer hok (.inl ⟨firmware, keys, rfl, hf, hk⟩))
  | connectModel =>
    exact modelProgress_moves hr
      (fun answer model hok hp => hc answer hok (.inr ⟨model, rfl, hp⟩))

theorem resume_moves {reply : Reply} (h : w.resume config prim t reply = some w') :
    Moves config (Reopens config prim w (.resume t reply)) (w, w.hold) (w', w'.hold) := by
  simp only [World.resume, Option.bind_eq_some_iff] at h
  obtain ⟨task, htask, h⟩ := h
  have hhold := World.hold_of_tasks htask
  have hq : Moves config (Reopens config prim w (.resume t reply)) (w, w.hold)
      (w.consumeInterrupt t, (w.consumeInterrupt t).hold) :=
    .single (.quiet ⟨rfl, rfl, rfl, rfl, rfl, rfl, rfl, rfl, id, id⟩)
  refine hq.trans ?_
  have hhold' : (w.consumeInterrupt t).hold t = task.hold := hhold
  have hout : task.hold = .outside → Moves config (Reopens config prim w (.resume t reply))
      (w.consumeInterrupt t, (w.consumeInterrupt t).hold)
      (w.consumeInterrupt t, Function.update (w.consumeInterrupt t).hold t .outside) :=
    fun hx => outside_moves (hhold'.trans hx)
  cases task with
  | readingRevision =>
    simp only [World.resumeTask] at h
    split at h <;> obtain rfl := Option.some.inj h
    · exact gotRevision_moves _ hhold'
    · exact failConnect_moves _ (.single (.stopReading hhold')) rfl
  | subscribing firmware =>
    simp only [World.resumeTask] at h
    split at h <;> obtain rfl := Option.some.inj h
    · exact subscribed_moves firmware hhold'
    · exact failConnect_moves _ (hout rfl) rfl
  | exchanging caller command await =>
    cases hi : w.interrupts t with
    | some i =>
      simp only [World.resumeTask, hi, Option.some.injEq] at h
      subst h
      exact progress_moves command (interruptExchange_runs command i hhold')
        (fun answer hok => absurd hok (interruptExchange_not_ok t command i await answer))
    | none =>
      simp only [World.resumeTask, hi, Option.map_eq_some_iff] at h
      obtain ⟨out, hres, rfl⟩ := h
      refine progress_moves command (resumeExchange_runs command _ hhold' hres) ?_
      intro answer hok haccept hs
      obtain ⟨call, r, hawait, hf, hcheck⟩ := resumeExchange_ok hres hok
      refine ⟨hs, t, reply, caller, command, await, call, r, rfl, htask, hi, by simpa using hawait, hf, ?_⟩
      rcases haccept with ⟨firmware, keys, rfl, hlt, hk⟩ | ⟨model, rfl, hp⟩
      · exact ⟨hlt, answer, keys, hcheck, hk⟩
      · exact ⟨answer, model, hcheck, hp⟩
  | failingConnect e =>
    simp only [World.resumeTask] at h
    split at h <;> obtain rfl := Option.some.inj h
    · exact finish_moves _ (.single (.stopClosing hhold')) rfl
    · exact finish_moves _ (.single (.stopClosing hhold')) rfl
  | closing =>
    simp only [World.resumeTask] at h
    split at h <;> obtain rfl := Option.some.inj h
    · exact finish_moves _ (.single (.stopClosing hhold')) rfl
    · exact finish_moves _ (.single (.stopClosing hhold')) rfl
  | finished result => simp [World.resumeTask] at h

theorem onDisconnect_moves :
    Moves config reopens (w, w.hold) (w.onDisconnect, w.onDisconnect.hold) := by
  unfold World.onDisconnect
  split_ifs
  · exact .refl
  · let closed : World :=
      { w with session := { w.session with state := .closed, stream := w.session.stream.reset } }
    have hq : Quiet w closed := ⟨rfl, rfl, rfl, rfl, rfl, rfl, rfl, rfl, by simp [closed], fun _ => rfl⟩
    rw [World.hold_congr (failPending_tasks (w := closed) _)]
    exact .trans (.single (.quiet hq)) (failPending_moves _)

/-- Everything a turn other than a notification does. -/
theorem step_moves {l : Label} (hl : ∀ data origin, l ≠ .notify data origin)
    (h : w.step config prim l = some w') :
    Moves config (Reopens config prim w l) (w, w.hold) (w', w'.hold) := by
  cases l with
  | connect tid =>
    simp only [World.step] at h
    split_ifs at h with hn
    obtain rfl := Option.some.inj h
    exact startConnect_moves (World.hold_of_isNone hn)
  | send tid command skipAppGates =>
    simp only [World.step] at h
    split_ifs at h with hn
    obtain rfl := Option.some.inj h
    exact startSend_moves command skipAppGates (World.hold_of_isNone hn)
  | close tid =>
    simp only [World.step] at h
    split_ifs at h with hn
    obtain rfl := Option.some.inj h
    have ho : Moves config (Reopens config prim w (.close tid)) (w, w.hold)
        (w, Function.update w.hold tid .outside) := outside_moves (World.hold_of_isNone hn)
    exact closing_moves rfl ho rfl
  | resume tid reply => exact resume_moves h
  | cancel tid =>
    simp only [World.step] at h
    split_ifs at h
    obtain rfl := Option.some.inj h
    exact interrupt_moves .cancelled
  | expire tid =>
    simp only [World.step, Option.bind_eq_some_iff] at h
    obtain ⟨call, _, h⟩ := h
    split_ifs at h
    obtain rfl := Option.some.inj h
    exact interrupt_moves .expired
  | notify data origin => exact absurd rfl (hl data origin)
  | disconnect =>
    obtain rfl := Option.some.inj h
    exact onDisconnect_moves
  | tick ticks =>
    obtain rfl := Option.some.inj h
    exact .single (.tick ticks)

/-! Notifications. -/

/-- The response that arrives whole with this notification. -/
def World.arrived (w : World) (data : Bytes) : Option Response :=
  match (w.session.stream.receive data).1 with
  | .ok (.payload p) => (Response.fromBytes p.data).toOption
  | _ => none

/-- The response completes the future of the command in flight. -/
structure Completes (w : World) (data : Bytes) (r : Response) (p : Pending) : Prop where
  arrives : w.arrived data = some r
  notEvent : r.isEvent = false
  pending : w.session.pending = some p
  waiting : (w.calls p.call).future = .waiting
  ref : r.commandRef = p.commandRef
  id : p.staticRef = true → r.responseId = expectedResponseId p.commandId

theorem onNotification_cases (data : Bytes) (origin : Option Nat) :
    Quiet w (w.onNotification data origin) ∨
    ∃ w₁ p r, Quiet w w₁ ∧ Completes w data r p ∧
      w.onNotification data origin = w₁.complete p.call origin r := by
  let w₁ : World := { w with session := { w.session with stream := (w.session.stream.receive data).2 } }
  have hq : Quiet w w₁ := ⟨rfl, rfl, rfl, rfl, rfl, rfl, rfl, rfl, id, id⟩
  have hdrop : ∀ e, Quiet w (w₁.drop e) := fun e => ⟨rfl, rfl, rfl, rfl, rfl, rfl, rfl, rfl, id, id⟩
  cases hr : (w.session.stream.receive data).1 with
  | error e =>
    left
    simpa only [World.onNotification, hr] using hdrop e
  | ok received =>
    cases received with
    | status packet => left; simpa only [World.onNotification, hr] using hq
    | none => left; simpa only [World.onNotification, hr] using hq
    | payload payload =>
      cases hp : Response.fromBytes payload.data with
      | error e => left; simpa only [World.onNotification, hr, hp] using hdrop e
      | ok r =>
        have hn : w.onNotification data origin = w₁.takeResponse origin r := by
          simp only [World.onNotification, hr, hp]
          rfl
        have harrived : w.arrived data = some r := by simp [World.arrived, hr, hp, Except.toOption]
        rw [hn]
        unfold World.takeResponse
        split_ifs with he
        · left
          unfold World.dispatchEvent
          split
          · exact hdrop _
          · exact hq
          · exact ⟨rfl, rfl, rfl, rfl, rfl, rfl, rfl, rfl, id, id⟩
        · split
          · exact .inl hq
          · rename_i p hpend
            split_ifs with hw hlate
            · exact .inl hq
            · exact .inl (hdrop _)
            · right
              have hwait : (w.calls p.call).future = .waiting := by
                have hw' : (w₁.calls p.call).future.isWaiting = true := by
                  simpa using (not_or.mp hw).1
                cases hf : (w.calls p.call).future <;> simp [w₁, hf, Future.isWaiting] at hw'
                rfl
              have href : r.commandRef = p.commandRef := not_not.mp (not_or.mp hw).2
              have hid : p.staticRef = true → r.responseId = expectedResponseId p.commandId := by
                intro hs
                by_contra hid
                exact hlate ⟨hs, hid⟩
              exact ⟨w₁, p, r, hq, ⟨harrived, by simpa using he, hpend, hwait, href, hid⟩, rfl⟩

theorem onNotification_tasks (data : Bytes) (origin : Option Nat) :
    (w.onNotification data origin).tasks = w.tasks := by
  unfold World.onNotification World.takeResponse World.dispatchEvent
  simp only
  repeat' split
  all_goals rfl

/-- What every move and every completed future keeps, every turn keeps. -/
theorem step_preserves {I : World → (TaskId → Hold) → Prop} {l : Label}
    (hmove : ∀ {v v' : World} {h h' : TaskId → Hold},
      Move config (Reopens config prim w l) (v, h) (v', h') → I v h → I v' h')
    (hcomplete : ∀ {data : Bytes} {origin : Option Nat} {w₁ : World} {p : Pending} {r : Response},
      l = .notify data origin → Quiet w w₁ → Completes w data r p → I w₁ w.hold →
      I (w₁.complete p.call origin r) w.hold)
    (hi : I w w.hold) (hs : w.step config prim l = some w') : I w' w'.hold := by
  by_cases hl : ∃ data origin, l = .notify data origin
  · obtain ⟨data, origin, rfl⟩ := hl
    obtain rfl := Option.some.inj hs
    rw [World.hold_congr (onNotification_tasks data origin)]
    rcases onNotification_cases (w := w) data origin with hq | ⟨w₁, p, r, hq, hc, hn⟩
    · exact hmove (.quiet hq) hi
    · rw [hn]
      exact hcomplete rfl hq hc (hmove (.quiet hq) hi)
  · have hm := step_moves (fun data origin he => hl ⟨data, origin, he⟩) hs
    have hrun : ∀ b, Moves config (Reopens config prim w l) (w, w.hold) b → I b.1 b.2 := by
      intro b hb
      induction hb with
      | refl => exact hi
      | tail _ hstep ih => exact hmove hstep ih
    exact hrun _ hm

end

end OnestiLock
