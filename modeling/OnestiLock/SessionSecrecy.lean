import OnestiLock.CipherModes
import OnestiLock.Correlation
import OnestiLock.FramingGrammar
import OnestiLock.SessionConnect

/-! No command but the key exchange leaves in the clear. -/

namespace OnestiLock

open Transition

/-- The commands that `connect` itself sends. -/
def ConnectCommand : Caller → CommandPayload → Prop
  | .send, _ => True
  | .connectKey _, command => command.commandId = .exchangeKeyPubM
  | .connectModel, command => command = deviceModelGet

/-- Every command in flight is framed, as far as it is still to be written. -/
def TasksFramed (w : World) : Prop :=
  ∀ t caller command await, w.tasks t = some (.exchanging caller command await) →
    AwaitsFramed w command await ∧ ConnectCommand caller command

def Written (w : World) : Prop := ∀ kf ∈ w.writes, kf.1 < w.issued ∧ Framed w kf.1 kf.2

/-- The future of the command in flight, if any, is done. -/
def PendingSettled (w : World) : Prop :=
  ∀ p, w.session.pending = some p → (w.calls p.call).future.isWaiting = false

/-- One turn of the event loop, as far as `connect` and the packets go. -/
structure GuardedTurn (config : SessionConfig) (prim : Primitives) (w w' : World) : Prop where
  shifts : Shifts config prim (w, w.stage) (w', w'.stage)
  tasks : ∀ t caller command await, w'.tasks t = some (.exchanging caller command await) →
    w.tasks t = some (.exchanging caller command await) ∨
      AwaitsFramed w' command await ∧ ConnectCommand caller command
  writes : ∀ kf ∈ w'.writes, kf ∈ w.writes ∨ kf.1 < w'.issued ∧ Framed w' kf.1 kf.2
  closed : w'.session.state = .closed → w.session.state = .closed ∨ PendingSettled w'

section

variable {config : SessionConfig} {prim : Primitives} {w w' : World} {t : TaskId}

theorem GuardedTurn.of_steady (h : Steady w w') (htasks : w'.tasks = w.tasks) (hwrites : w'.writes = w.writes)
    (hclosed : w'.session.state = .closed → w.session.state = .closed ∨ PendingSettled w') :
    GuardedTurn config prim w w' where
  shifts := by
    rw [World.stage_congr htasks]
    exact .single (.steady h)
  tasks u caller command await hu := .inl (htasks ▸ hu)
  writes kf hkf := .inl (hwrites ▸ hkf)
  closed := hclosed

theorem setTask_turn {task : Coroutine}
    (hm : Shifts config prim (w, w.stage) (w', Function.update w.stage t task.stage))
    (htasks : w'.tasks = w.tasks)
    (hwrites : ∀ kf ∈ w'.writes, kf ∈ w.writes ∨ kf.1 < w'.issued ∧ Framed w' kf.1 kf.2)
    (htask : ∀ caller command await, task = .exchanging caller command await →
      AwaitsFramed w' command await ∧ ConnectCommand caller command)
    (hclosed : w'.session.state = .closed → w.session.state = .closed ∨ PendingSettled w') :
    GuardedTurn config prim w (w'.setTask t task) := by
  have hgrows : Grows w' (w'.setTask t task) := .of_calls rfl rfl rfl rfl
  refine ⟨?_, ?_, ?_, hclosed⟩
  · rw [World.stage_setTask, World.stage_congr htasks]
    exact hm.tail (.steady ⟨hgrows, rfl, rfl, .inl rfl⟩)
  · intro u caller command await hu
    by_cases he : u = t
    · subst he
      simp only [World.setTask, Function.update_self, Option.some.injEq] at hu
      obtain ⟨hawait, hcommand⟩ := htask caller command await hu
      exact .inr ⟨hgrows.awaitsFramed hawait, hcommand⟩
    · simp only [World.setTask, Function.update_of_ne he, htasks] at hu
      exact .inl hu
  · intro kf hkf
    rcases hwrites kf hkf with hold | ⟨hissued, hframed⟩
    · exact .inl hold
    · exact .inr ⟨hissued, hgrows.framed hissued hframed⟩

theorem finish_turn (result : Except Exn (Option Response))
    (hm : Shifts config prim (w, w.stage) (w', Function.update w.stage t .apart))
    (htasks : w'.tasks = w.tasks)
    (hwrites : ∀ kf ∈ w'.writes, kf ∈ w.writes ∨ kf.1 < w'.issued ∧ Framed w' kf.1 kf.2)
    (hclosed : w'.session.state = .closed → w.session.state = .closed ∨ PendingSettled w') :
    GuardedTurn config prim w (w'.finish t result) :=
  setTask_turn hm htasks hwrites (by simp) hclosed

theorem failPending_settled (message : String) : PendingSettled (w.failPending message) := by
  intro p hp
  cases hpending : w.session.pending with
  | none =>
    have hsame : w.failPending message = w := by simp only [World.failPending, hpending]
    rw [hsame, hpending] at hp
    exact absurd hp (by simp)
  | some q =>
    have hsettle : w.failPending message = w.settle q.call (.failed (.disconnected message)) := by
      simp only [World.failPending, hpending]
    rw [hsettle] at hp ⊢
    obtain rfl : q = p := Option.some.inj (hpending.symm.trans hp)
    by_cases hwait : (w.calls q.call).future.isWaiting = true
    · simp only [World.settle, World.modifyCall, Function.update_self, hwait, if_true]
      rfl
    · simp [World.settle, World.modifyCall, hwait]

theorem failPending_grows (message : String) : Grows w (w.failPending message) := by
  unfold World.failPending
  split
  · exact .refl w
  · exact .settle w _ _

theorem failPending_steady (message : String) : Steady w (w.failPending message) := by
  refine ⟨failPending_grows message, ?_, ?_, ?_⟩ <;> unfold World.failPending <;> split
  all_goals first | rfl | exact .inl rfl

theorem closeSession_steady : Steady w w.closeSession := by
  let closed : World := { w with session := { w.session with state := .closed } }
  have hclosed : Grows w closed := .of_calls rfl rfl rfl rfl
  have hfail : Steady closed w.closeSession := failPending_steady _
  exact ⟨hclosed.trans hfail.grows, hfail.linkKeys, hfail.cipher, .inr (failPending_state _)⟩

theorem closeSession_writes : w.closeSession.writes = w.writes := by
  unfold World.closeSession World.failPending
  split <;> rfl

theorem closing_turn {task : Coroutine} (htask : task.stage = .apart)
    (hm : Shifts config prim (w, w.stage) (w', Function.update w.stage t .apart))
    (htasks : w'.tasks = w.tasks)
    (hwrites : ∀ kf ∈ w'.writes, kf ∈ w.writes ∨ kf.1 < w'.issued ∧ Framed w' kf.1 kf.2) :
    GuardedTurn config prim w (w'.closeSession.setTask t task) := by
  have hsteady : Steady w' w'.closeSession := closeSession_steady
  refine setTask_turn ?_ ?_ ?_ ?_ ?_
  · rw [htask]
    exact hm.tail (.steady hsteady)
  · exact (failPending_tasks _).trans htasks
  · intro kf hkf
    rw [closeSession_writes] at hkf
    rcases hwrites kf hkf with hold | ⟨hissued, hframed⟩
    · exact .inl hold
    · exact .inr ⟨Nat.lt_of_lt_of_le hissued hsteady.grows.issued, hsteady.grows.framed hissued hframed⟩
  · intro caller command await he
    subst he
    cases caller <;> exact absurd htask (by simp [Coroutine.stage])
  · exact fun _ => .inr (failPending_settled _)

theorem failConnect_turn (e : Exn)
    (hm : Shifts config prim (w, w.stage) (w', Function.update w.stage t .apart))
    (htasks : w'.tasks = w.tasks)
    (hwrites : ∀ kf ∈ w'.writes, kf ∈ w.writes ∨ kf.1 < w'.issued ∧ Framed w' kf.1 kf.2) :
    GuardedTurn config prim w (w'.failConnect t e) :=
  closing_turn rfl hm htasks hwrites

/-- The stage of the coroutine that runs stays what it was. -/
theorem Stretch.shifts {command : CommandPayload} {out : World × Progress} {x : Stage}
    (h : Stretch w command out) (ht : w.stage t = x) :
    Shifts config prim (w, w.stage) (out.1, Function.update w.stage t x) := by
  rw [← ht, Function.update_eq_self]
  exact .single (.steady h.steady)

theorem Stretch.shifts_apart {command : CommandPayload} {out : World × Progress}
    (h : Stretch w command out) :
    Shifts config prim (w, w.stage) (out.1, Function.update w.stage t .apart) :=
  .tail (.single (.steady h.steady)) (.stop t)

theorem Stretch.closed {command : CommandPayload} {out : World × Progress} (h : Stretch w command out) :
    out.1.session.state = .closed → w.session.state = .closed ∨ PendingSettled out.1 :=
  fun hs => .inl (h.state.symm.trans hs)

theorem sendProgress_turn {command : CommandPayload} {out : World × Progress}
    (hs : w.stage t = .sending ∨ w.session.state = .connected) (h : Stretch w command out) :
    GuardedTurn config prim w (World.sendProgress t command out) := by
  obtain ⟨w', await | result⟩ := out
  · have hm : Shifts config prim (w, w.stage) (w', Function.update w.stage t .sending) := by
      rcases hs with hs | hs
      · exact h.shifts hs
      · exact .tail (.single (.steady h.steady)) (.send (h.state.trans hs))
    refine setTask_turn hm h.tasks h.writes ?_ h.closed
    intro caller command' await' he
    obtain ⟨rfl, rfl, rfl⟩ := Coroutine.exchanging.inj he
    exact ⟨h.awaitsFramed rfl, trivial⟩
  · exact finish_turn _ h.shifts_apart h.tasks h.writes h.closed

theorem modelProgress_turn {w₁ : World} {out : World × Progress}
    (hm : Shifts config prim (w, w.stage) (w₁, Function.update w.stage t .asking))
    (htasks : w₁.tasks = w.tasks)
    (hwrites : ∀ kf ∈ w₁.writes, kf ∈ w.writes ∨ kf.1 < w₁.issued ∧ Framed w₁ kf.1 kf.2)
    (hstate : w₁.session.state = w.session.state) (h : Stretch w₁ deviceModelGet out) : GuardedTurn config prim w (World.modelProgress t out) := by
  have hasking := hm.tail (.steady h.steady)
  have htasks' := h.tasks.trans htasks
  have hclosed : out.1.session.state = .closed → w.session.state = .closed ∨ PendingSettled out.1 :=
    fun hs => .inl ((h.state.trans hstate).symm.trans hs)
  have hwrites' : ∀ kf ∈ out.1.writes, kf ∈ w.writes ∨ kf.1 < out.1.issued ∧ Framed out.1 kf.1 kf.2 := by
    intro kf hkf
    rcases h.writes kf hkf with hold | hnew
    · rcases hwrites kf hold with hold | ⟨hissued, hframed⟩
      · exact .inl hold
      · exact .inr ⟨Nat.lt_of_lt_of_le hissued h.grows.issued, h.grows.framed hissued hframed⟩
    · exact .inr hnew
  have hapart : Shifts config prim (w, w.stage) (out.1, Function.update w.stage t .apart) := by
    have hstop := hasking.tail (.stop t)
    rwa [Function.update_idem] at hstop
  obtain ⟨w', await | result⟩ := out
  · refine setTask_turn hasking htasks' hwrites' ?_ hclosed
    intro caller command await' he
    obtain ⟨rfl, rfl, rfl⟩ := Coroutine.exchanging.inj he
    exact ⟨h.awaitsFramed rfl, rfl⟩
  · cases hresult : (result >>= fun r => liftBle (parseDeviceModel r) : Except Exn Nat) with
    | error e =>
      simp only [World.modelProgress, hresult]
      exact failConnect_turn e hapart htasks' hwrites'
    | ok model =>
      simp only [World.modelProgress, hresult]
      let modelled : World := { w' with session := { w'.session with model := some model } }
      have hgrows : Grows w' modelled := .of_calls rfl rfl rfl rfl
      have hmodelled := hasking.tail (.steady ⟨hgrows, rfl, rfl, .inl rfl⟩)
      have hconnect := hmodelled.tail (.connect (Function.update_self ..))
      rw [Function.update_idem] at hconnect
      exact finish_turn _ hconnect htasks' hwrites' (by simp)

/-- The command that `connect` waits on, and the answer it got. -/
def AnsweredBy (w : World) (command : CommandPayload) (out : World × Progress) : Prop :=
  ∀ answer, out.2 = .ended (.ok answer) → ∃ call r, call < w.issued ∧
    (w.calls call).commandId = command.commandId ∧ (w.calls call).future = .answered r ∧
    checkAnswer command.commandId r = .ok answer

theorem keyProgress_turn {firmware : FirmwareVersion} {command : CommandPayload} {out : World × Progress}
    (hi : StageLinked config prim w w.stage) (ht : w.stage t = .keying)
    (hcommand : command.commandId = .exchangeKeyPubM) (h : Stretch w command out)
    (hanswer : AnsweredBy w command out) :
    GuardedTurn config prim w (World.keyProgress config prim t firmware command out) := by
  obtain ⟨w', await | result⟩ := out
  · refine setTask_turn (h.shifts ht) h.tasks h.writes ?_ h.closed
    intro caller command' await' he
    obtain ⟨rfl, rfl, rfl⟩ := Coroutine.exchanging.inj he
    exact ⟨h.awaitsFramed rfl, hcommand⟩
  · cases hkeys : (result >>= linkKeysOf config prim : Except Exn LinkKeys) with
    | error e =>
      simp only [World.keyProgress, hkeys]
      exact failConnect_turn e h.shifts_apart h.tasks h.writes
    | ok keys =>
      simp only [World.keyProgress, hkeys]
      obtain ⟨answer, hok, hderived⟩ := bind_eq_ok.mp hkeys
      subst hok
      obtain ⟨call, r, hcall, hid, hr, hcheck⟩ := hanswer answer rfl
      rw [hcommand] at hid hcheck
      have hown : OwnKeys config prim w' keys :=
        h.grows.ownKeys ⟨call, r, answer, hcall, hid, hr, hcheck, hderived⟩
      have hkeyed : Shifts config prim (w, w.stage)
          (w'.setLinkKeys prim keys, Function.update w.stage t .asking) :=
        .tail (.single (.steady h.steady)) (.key ht hown)
      have hgrows : Grows w' (w'.setLinkKeys prim keys) :=
        (hi.steady h.steady).setLinkKeys_grows ht keys
      have hwrites : ∀ kf ∈ (w'.setLinkKeys prim keys).writes, kf ∈ w.writes ∨
          kf.1 < (w'.setLinkKeys prim keys).issued ∧ Framed (w'.setLinkKeys prim keys) kf.1 kf.2 := by
        intro kf hkf
        rcases h.writes kf hkf with hold | ⟨hissued, hframed⟩
        · exact .inl hold
        · exact .inr ⟨hissued, hgrows.framed hissued hframed⟩
      split_ifs with hold
      · have hconnect := hkeyed.tail (.connect (Function.update_self ..))
        rw [Function.update_idem] at hconnect
        refine finish_turn _ hconnect h.tasks ?_ (by simp)
        intro kf hkf
        exact hwrites kf hkf
      · exact modelProgress_turn hkeyed h.tasks hwrites h.state (exchange_stretch t)

theorem startConnect_turn : GuardedTurn config prim w (w.startConnect t) := by
  unfold World.startConnect
  split_ifs with hs
  · exact setTask_turn (.single (.start hs)) rfl (fun _ h => .inl h) (by simp) (by simp)
  · exact finish_turn _ (.single (.stop t)) rfl (fun _ h => .inl h) .inl

theorem gotRevision_turn (raw : Bytes) (ht : w.stage t = .keying) :
    GuardedTurn config prim w (w.gotRevision t raw) := by
  unfold World.gotRevision
  split
  · exact failConnect_turn _ (.single (.stop t)) rfl (fun _ h => .inl h)
  · rename_i firmware hfirmware
    split_ifs
    · exact failConnect_turn _ (.single (.stop t)) rfl (fun _ h => .inl h)
    · let read : World := { w with session := { w.session with
        firmware := some firmware, refs := some (.forFirmware firmware) } }
      have hgrows : Grows w read := .of_calls rfl rfl rfl rfl
      have hread : Shifts config prim (w, w.stage) (read, Function.update w.stage t .keying) := by
        rw [← ht, Function.update_eq_self]
        exact .single (.steady ⟨hgrows, rfl, rfl, .inl rfl⟩)
      exact setTask_turn hread rfl (fun _ h => .inl h) (by simp) .inl

theorem subscribed_turn {firmware : FirmwareVersion} (hi : StageLinked config prim w w.stage)
    (ht : w.stage t = .keying) : GuardedTurn config prim w (w.subscribed config prim t firmware) := by
  unfold World.subscribed
  cases hcommand : exchangeKeyPubM config.keyPair.publicKey with
  | error e => exact failConnect_turn _ (.single (.stop t)) rfl (fun _ h => .inl h)
  | ok command =>
    have hid : command.commandId = .exchangeKeyPubM := by
      obtain ⟨_, -, hok⟩ := bind_eq_ok.mp hcommand
      cases hok
      rfl
    refine keyProgress_turn hi ht hid (exchange_stretch t) ?_
    exact fun answer hok => absurd hok (exchange_not_ok t command answer)

theorem startSend_turn (command : CommandPayload) (skipAppGates : Bool) :
    GuardedTurn config prim w (w.startSend config t command skipAppGates) := by
  unfold World.startSend
  split_ifs with hs
  · split
    · exact finish_turn _ (.single (.stop t)) rfl (fun _ h => .inl h) .inl
    · simp only
      split_ifs
      · exact finish_turn _ (.single (.stop t)) rfl (fun _ h => .inl h) .inl
      · exact sendProgress_turn (.inr hs) (exchange_stretch t)
  · exact finish_turn _ (.single (.stop t)) rfl (fun _ h => .inl h) .inl

theorem progress_turn {caller : Caller} {command : CommandPayload} {await : Await}
    {out : World × Progress} (hi : StageLinked config prim w w.stage)
    (ht : w.stage t = (Coroutine.exchanging caller command await).stage)
    (hcommand : ConnectCommand caller command) (h : Stretch w command out)
    (hanswer : AnsweredBy w command out) :
    GuardedTurn config prim w (World.progress config prim t caller command out) := by
  cases caller with
  | send => exact sendProgress_turn (.inl ht) h
  | connectKey firmware => exact keyProgress_turn hi ht hcommand h hanswer
  | connectModel =>
    obtain rfl : command = deviceModelGet := hcommand
    have hasking : Shifts config prim (w, w.stage) (w, Function.update w.stage t .asking) := by
      rw [show Stage.asking = w.stage t from ht.symm, Function.update_eq_self]
    exact modelProgress_turn hasking rfl (fun _ h => .inl h) rfl h

theorem AwaitsFramed.answered {command : CommandPayload} {reply : Reply} {await : Await}
    {out : World × Progress} (ha : AwaitsFramed w command await)
    (hout : w.resumeExchange config t command reply await = some out) : AnsweredBy w command out := by
  intro answer hok
  obtain ⟨call, r, hawait, hr, hcheck⟩ := resumeExchange_ok hout hok
  have hflies : Flies w command call [] := by
    rcases hawait with rfl | ⟨rfl, -⟩ <;> exact ha
  exact ⟨call, r, hflies.issued, hflies.commandId, hr, hcheck⟩

theorem resume_turn {reply : Reply} (hi : StageLinked config prim w w.stage) (hframed : TasksFramed w)
    (h : w.resume config prim t reply = some w') : GuardedTurn config prim w w' := by
  simp only [World.resume, Option.bind_eq_some_iff] at h
  obtain ⟨task, htask, h⟩ := h
  have hstage := World.stage_of_tasks htask
  let v := w.consumeInterrupt t
  have hgrows : Grows w v := .of_calls rfl rfl rfl rfl
  have hv : StageLinked config prim v v.stage := hi.steady ⟨hgrows, rfl, rfl, .inl rfl⟩
  have hstop : Shifts config prim (v, v.stage) (v, Function.update v.stage t .apart) := .single (.stop t)
  have hturn : GuardedTurn config prim v w' := by
    cases task with
    | readingRevision =>
      simp only [World.resumeTask] at h
      split at h <;> obtain rfl := Option.some.inj h
      · exact gotRevision_turn _ hstage
      · exact failConnect_turn _ hstop rfl (fun _ h => .inl h)
    | subscribing firmware =>
      simp only [World.resumeTask] at h
      split at h <;> obtain rfl := Option.some.inj h
      · exact subscribed_turn hv hstage
      · exact failConnect_turn _ hstop rfl (fun _ h => .inl h)
    | exchanging caller command await =>
      obtain ⟨hawait, hcommand⟩ := hframed t caller command await htask
      have hawait' : AwaitsFramed v command await := hgrows.awaitsFramed hawait
      cases hi : w.interrupts t with
      | some i =>
        simp only [World.resumeTask, hi, Option.some.injEq] at h
        subst h
        refine progress_turn hv hstage hcommand (interruptExchange_stretch t i await) ?_
        exact fun answer hok => absurd hok (interruptExchange_not_ok t command i await answer)
      | none =>
        simp only [World.resumeTask, hi, Option.map_eq_some_iff] at h
        obtain ⟨out, hout, rfl⟩ := h
        exact progress_turn hv hstage hcommand (resumeExchange_stretch hawait' hout)
          (hawait'.answered hout)
    | failingConnect e =>
      simp only [World.resumeTask] at h
      split at h <;> obtain rfl := Option.some.inj h
      · exact finish_turn _ hstop rfl (fun _ h => .inl h) .inl
      · exact finish_turn _ hstop rfl (fun _ h => .inl h) .inl
    | closing =>
      simp only [World.resumeTask] at h
      split at h <;> obtain rfl := Option.some.inj h
      · exact finish_turn _ hstop rfl (fun _ h => .inl h) .inl
      · exact finish_turn _ hstop rfl (fun _ h => .inl h) .inl
    | finished result => simp [World.resumeTask] at h
  refine ⟨?_, hturn.tasks, hturn.writes, hturn.closed⟩
  exact .head (.steady ⟨hgrows, rfl, rfl, .inl rfl⟩) hturn.shifts

theorem interrupt_turn (i : Interrupt) : GuardedTurn config prim w (w.interrupt t i) := by
  unfold World.interrupt
  simp only
  split
  · exact .of_steady ⟨.of_calls rfl rfl rfl rfl, rfl, rfl, .inl rfl⟩ rfl rfl .inl
  · rename_i call
    let thrown : World := { w with interrupts := Function.update w.interrupts t (some i) }
    have hthrown : Grows w thrown := .of_calls rfl rfl rfl rfl
    exact .of_steady ⟨hthrown.trans (.settle thrown _ _), rfl, rfl, .inl rfl⟩ rfl rfl .inl
  · exact .of_steady ⟨.of_calls rfl rfl rfl rfl, rfl, rfl, .inl rfl⟩ rfl rfl .inl

theorem onNotification_writes (data : Bytes) (origin : Option Nat) :
    (w.onNotification data origin).writes = w.writes ∧
      (w.onNotification data origin).session.linkKeys = w.session.linkKeys ∧
      (w.onNotification data origin).session.state = w.session.state ∧
      (w.onNotification data origin).session.stream = (w.session.stream.receive data).2 := by
  unfold World.onNotification World.takeResponse World.dispatchEvent
  simp only
  repeat' split
  all_goals exact ⟨rfl, rfl, rfl, rfl⟩

theorem onNotification_turn (data : Bytes) (origin : Option Nat) :
    GuardedTurn config prim w (w.onNotification data origin) := by
  obtain ⟨hwrites, hkeys, hstate, hstream⟩ := onNotification_writes (w := w) data origin
  have hreset := PacketStream.receive_reset w.session.stream data
  have hcipher : (w.onNotification data origin).session.stream.cipher = w.session.stream.cipher := by
    rw [hstream]
    have hsame := congrArg PacketStream.cipher hreset
    exact hsame
  have hmtu : (w.onNotification data origin).session.stream.mtu = w.session.stream.mtu := by
    rw [hstream]
    have hsame := congrArg PacketStream.mtu hreset
    exact hsame
  have hgrows : Grows w (w.onNotification data origin) := by
    rcases onNotification_cases (w := w) data origin with hq | ⟨w₁, p, r, hq, hc, hn⟩
    · exact .of_calls hq.calls hq.issued hcipher hmtu
    · have hquiet : ∀ k, (w₁.calls k) = w.calls k := fun k => congrFun hq.calls k
      have hwaiting := hc.waiting
      have hcomplete : Grows w₁ (w₁.complete p.call origin r) := by
        refine .modifyCall w₁ p.call (fun _ => ⟨rfl, rfl⟩) ?_ (fun _ h => h)
        intro r' hr'
        rw [hquiet, hwaiting] at hr'
        exact absurd hr' (by simp)
      refine ⟨?_, ?_, ?_, ?_, fun cipher hc => hcipher.trans hc, hmtu⟩
      · rw [hn]
        exact Nat.le_of_eq hq.issued.symm
      · intro k hk
        rw [hn, ← hquiet k]
        exact hcomplete.commands k (hq.issued ▸ hk)
      · intro k hk r' hr'
        rw [hn]
        exact hcomplete.answered k (hq.issued ▸ hk) r' ((hquiet k).symm ▸ hr')
      · intro k hk hended
        rw [hn]
        exact hcomplete.ended k (hq.issued ▸ hk) ((hquiet k).symm ▸ hended)
  exact .of_steady ⟨hgrows, hkeys, hcipher, .inl hstate⟩ (onNotification_tasks data origin) hwrites
    (fun hs => .inl (hstate.symm.trans hs))

theorem onDisconnect_turn : GuardedTurn config prim w w.onDisconnect := by
  unfold World.onDisconnect
  split_ifs with hs
  · exact .of_steady ⟨.refl w, rfl, rfl, .inl rfl⟩ rfl rfl .inl
  · let closed : World :=
      { w with session := { w.session with state := .closed, stream := w.session.stream.reset } }
    have hclosed : Grows w closed := .of_calls rfl rfl rfl rfl
    have hfail : Steady closed (closed.failPending "The lock disconnected before it answered") :=
      failPending_steady _
    refine .of_steady ⟨hclosed.trans hfail.grows, hfail.linkKeys, hfail.cipher, ?_⟩
      (failPending_tasks _) ?_ ?_
    · exact .inr (failPending_state _)
    · unfold World.failPending
      split <;> rfl
    · exact fun _ => .inr (failPending_settled _)

theorem step_turn {l : Label} (hi : StageLinked config prim w w.stage) (hframed : TasksFramed w)
    (h : w.step config prim l = some w') : GuardedTurn config prim w w' := by
  cases l with
  | connect tid =>
    simp only [World.step] at h
    split_ifs at h
    obtain rfl := Option.some.inj h
    exact startConnect_turn
  | send tid command skipAppGates =>
    simp only [World.step] at h
    split_ifs at h
    obtain rfl := Option.some.inj h
    exact startSend_turn command skipAppGates
  | close tid =>
    simp only [World.step] at h
    split_ifs at h
    obtain rfl := Option.some.inj h
    exact closing_turn rfl (.single (.stop tid)) rfl (fun _ h => .inl h)
  | resume tid reply => exact resume_turn hi hframed h
  | cancel tid =>
    simp only [World.step] at h
    split_ifs at h
    obtain rfl := Option.some.inj h
    exact interrupt_turn .cancelled
  | expire tid =>
    simp only [World.step, Option.bind_eq_some_iff] at h
    obtain ⟨call, _, h⟩ := h
    split_ifs at h
    obtain rfl := Option.some.inj h
    exact interrupt_turn .expired
  | notify data origin =>
    obtain rfl := Option.some.inj h
    exact onNotification_turn data origin
  | disconnect =>
    obtain rfl := Option.some.inj h
    exact onDisconnect_turn
  | tick ticks =>
    obtain rfl := Option.some.inj h
    exact .of_steady ⟨.of_calls rfl rfl rfl rfl, rfl, rfl, .inl rfl⟩ rfl rfl .inl

end

/-- What holds in every reachable state. -/
structure Secret (config : SessionConfig) (prim : Primitives) (w : World) : Prop where
  linked : StageLinked config prim w w.stage
  tasks : TasksFramed w
  written : Written w

namespace Secret

variable {config : SessionConfig} {prim : Primitives} {w w' : World}

theorem init : Secret config prim (.new config) where
  linked := StageLinked.init
  tasks t caller command await ht := by simp [World.new] at ht
  written kf hkf := by simp [World.new] at hkf

theorem step_grows {l : Label} (hi : Secret config prim w) (hs : w.step config prim l = some w') :
    Secret config prim w' ∧ Grows w w' := by
  have hturn := step_turn hi.linked hi.tasks hs
  obtain ⟨hlinked, hgrows⟩ := hi.linked.shifts hturn.shifts
  refine ⟨⟨hlinked, ?_, ?_⟩, hgrows⟩
  · intro t caller command await ht
    rcases hturn.tasks t caller command await ht with hold | hnew
    · obtain ⟨hawait, hcommand⟩ := hi.tasks t caller command await hold
      exact ⟨hgrows.awaitsFramed hawait, hcommand⟩
    · exact hnew
  · intro kf hkf
    rcases hturn.writes kf hkf with hold | hnew
    · obtain ⟨hissued, hframed⟩ := hi.written kf hold
      exact ⟨Nat.lt_of_lt_of_le hissued hgrows.issued, hgrows.framed hissued hframed⟩
    · exact hnew

theorem run {ls : List Label} (hi : Secret config prim w)
    (hr : exec (World.step config prim) w ls = some w') : Secret config prim w' ∧ Grows w w' := by
  refine exec_invariant (I := fun v => Secret config prim v ∧ Grows w v) ?_ ⟨hi, .refl w⟩ hr
  rintro v l v' ⟨hv, hgrows⟩ hs
  obtain ⟨hv', hgrows'⟩ := hv.step_grows hs
  exact ⟨hv', hgrows.trans hgrows'⟩

theorem reachable {ls : List Label} (hr : exec (World.step config prim) (.new config) ls = some w) :
    Secret config prim w :=
  (init.run hr).1

end Secret

/-- Handed to the transport, or framed and still to be written. -/
def Outgoing (w : World) (call : Nat) (frame : Bytes) : Prop :=
  (call, frame) ∈ w.writes ∨ ∃ t caller command rest,
    w.tasks t = some (.exchanging caller command (.writing call rest)) ∧ frame ∈ rest

/-- Cut from the bytes of the call's command, encrypted once and whole. -/
def CutFromCiphertext (config : SessionConfig) (w : World) (call : Nat) (cipher : PayloadCipher)
    (frame : Bytes) : Prop :=
  ∃ payload raw frames,
    Command.toBytes ⟨(w.calls call).commandId, (w.calls call).commandRef, payload, 0⟩ = .ok raw ∧
    (packetize (cipher.encrypt raw) true config.mtu >>= List.mapM Packet.toBytes) = .ok frames ∧
    frame ∈ frames

/-- Every packet of a command other than the key exchange is cut from the
command encrypted under the keys of this session's own exchange, and the cipher
is set once. -/
theorem no_plaintext_command (config : SessionConfig) (prim : Primitives) {ls : List Label} {w : World}
    (hr : exec (World.step config prim) (.new config) ls = some w) :
    (∀ call frame, Outgoing w call frame → (w.calls call).commandId ≠ .exchangeKeyPubM →
      ∃ keys, w.session.linkKeys = some keys ∧ OwnKeys config prim w keys ∧
        CutFromCiphertext config w call (keys.cipher.payloadCipher prim) frame) ∧
    ∀ ms w', exec (World.step config prim) w ms = some w' →
      ∀ cipher, w.session.stream.cipher = some cipher → w'.session.stream.cipher = some cipher := by
  have hsecret := Secret.reachable hr
  constructor
  · intro call frame hout hcommand
    have hframed : Framed w call frame := by
      rcases hout with hwritten | ⟨t, caller, command, rest, ht, hmem⟩
      · exact (hsecret.written _ hwritten).2
      · exact (hsecret.tasks t caller command _ ht).1.framed frame hmem
    obtain ⟨cipher, payload, raw, frames, hcipher, hraw, hframes, hmem⟩ := hframed hcommand
    rw [hsecret.linked.cipher] at hcipher
    obtain ⟨keys, hkeys, rfl⟩ := Option.map_eq_some_iff.mp hcipher
    rw [hsecret.linked.mtu] at hframes
    exact ⟨keys, hkeys, hsecret.linked.own keys hkeys, payload, raw, frames, hraw, hframes, hmem⟩
  · intro ms w' hms cipher hcipher
    exact (hsecret.run hms).2.cipher cipher hcipher

/-- AES-128 on DeviceModelGet, under the link keys of a lock with the scalar 1. -/
def Primitives.aesModelGet : Primitives :=
  .knownBlock
    [0x96, 0xC2, 0x98, 0xD8, 0x45, 0x39, 0xA1, 0xF4, 0xA0, 0x33, 0xEB, 0x2D, 0x81, 0x7D, 0x03, 0x77]
    [0x90, 0x40, 0xA6, 0x63, 0xE5, 0xE6, 0xBC, 0xF8, 0x47, 0x42, 0x2C, 0xE1, 0xF2, 0xD1, 0x17, 0x6B]
    [0x4A, 0xCC, 0x80, 0x93, 0x5C, 0x42, 0x64, 0xA7, 0x3A, 0xAE, 0x5E, 0x6B, 0xA2, 0x16, 0x46, 0x20]
    rfl rfl

open CounterRun in
theorem no_plaintext_command_modelGet : ∃ w frame,
    exec (World.step .scalarOne .aesModelGet) (.new .scalarOne) labels = some w ∧
      frame = [2, 16, 0, 1, 0x4A, 0xCC, 0x80, 0x93, 0x5C, 0x42, 0x64, 0xA7, 0x3A, 0xAE, 0x5E, 0x6B,
        0xA2, 0x16, 0x46, 0x20] ∧
      ∃ keys, w.session.linkKeys = some keys ∧
        CutFromCiphertext .scalarOne w 1 (keys.cipher.payloadCipher .aesModelGet) frame := by
  have hend : (exec (World.step .scalarOne .aesModelGet) (.new .scalarOne) labels).map
      (fun w => (w.writes.getLast?, (w.calls 1).commandId)) =
        some (some (1, [2, 16, 0, 1, 0x4A, 0xCC, 0x80, 0x93, 0x5C, 0x42, 0x64, 0xA7, 0x3A, 0xAE, 0x5E,
          0x6B, 0xA2, 0x16, 0x46, 0x20]), .deviceModelGet) := by decide +kernel
  obtain ⟨w, hw, heq⟩ := Option.map_eq_some_iff.mp hend
  obtain ⟨hlast, hid⟩ := Prod.mk.inj heq
  have hout := List.mem_of_getLast? hlast
  have hcommand : (w.calls 1).commandId ≠ .exchangeKeyPubM := by
    rw [hid]
    decide
  obtain ⟨hcut, -⟩ := no_plaintext_command .scalarOne .aesModelGet hw
  obtain ⟨keys, hkeys, -, hframe⟩ := hcut 1 _ (.inl hout) hcommand
  exact ⟨w, _, hw, rfl, keys, hkeys, hframe⟩

end OnestiLock
