import OnestiLock.Enrollment

/-! What each part of the enrollment programs calls and how it ends, as rules
for any surroundings. -/

namespace OnestiLock

open Program

variable {prim : Primitives} {σ α : Type}
variable {env : Surroundings (EnrollmentOp prim) (EnrollmentReply prim) σ}
variable {guard : σ → EnrollmentOp prim → Prop} {s : σ}

theorem ensures_raising {x : Except Exn α} {post : σ → Except (EnrollmentExn prim) α → Prop}
    (ha : ∀ a, x = .ok a → post s (.ok a)) (he : ∀ e, x = .error e → post s (.error (.plain e))) :
    (raising x).Ensures env guard post s := by
  cases x with
  | ok a => exact ha a rfl
  | error e => exact he e rfl

theorem ensures_sendCommand {command : Except BleValidationError CommandPayload}
    {post : σ → Except (EnrollmentExn prim) Response → Prop}
    (hc : ∀ e, command = .error e → post s (.error (.plain (.ble (.validation e)))))
    (hg : ∀ c, command = .ok c → guard s (.send c))
    (ha : ∀ c r s', command = .ok c → env s (.send c) (.ok r) s' → post s' (.ok r))
    (he : ∀ c e s', command = .ok c → env s (.send c) (.error e) s' → post s' (.error (.plain e))) :
    (sendCommand command).Ensures env guard post s := by
  cases command with
  | error e => exact hc e rfl
  | ok c =>
    refine ⟨hg c rfl, fun r s' hr => ensures_raising ?_ ?_⟩
    · rintro a rfl
      exact ha c a s' rfl hr
    · rintro e rfl
      exact he c e s' rfl hr

theorem ensures_request {command : Except BleValidationError CommandPayload}
    {parse : Response → BleResult α} {post : σ → Except (EnrollmentExn prim) α → Prop}
    (hc : ∀ e, command = .error e → post s (.error (.plain (.ble (.validation e)))))
    (hg : ∀ c, command = .ok c → guard s (.send c))
    (ha : ∀ c r s' a, command = .ok c → env s (.send c) (.ok r) s' → parse r = .ok a → post s' (.ok a))
    (hp : ∀ c r s' b, command = .ok c → env s (.send c) (.ok r) s' → parse r = .error b →
      post s' (.error (.plain (.ble b))))
    (he : ∀ c e s', command = .ok c → env s (.send c) (.error e) s' → post s' (.error (.plain e))) :
    (request command parse).Ensures env guard post s := by
  cases command with
  | error e => exact hc e rfl
  | ok c =>
    refine ⟨hg c rfl, fun r s' hr => ?_⟩
    cases r with
    | error e => exact he c e s' rfl hr
    | ok r =>
      show (raising (liftBle (parse r)) : EnrollmentProgram prim α).Ensures env guard post s'
      cases hr' : parse r with
      | ok a => exact ha c r s' a rfl hr hr'
      | error b => exact hp c r s' b rfl hr hr'

theorem ensures_linkKeys {post : σ → Except (EnrollmentExn prim) LinkKeys → Prop}
    (hg : guard s .linkKeys) (ha : ∀ k s', env s .linkKeys (.ok k) s' → post s' (.ok k))
    (he : ∀ e s', env s .linkKeys (.error e) s' → post s' (.error (.plain e))) :
    linkKeys.Ensures env guard post s := by
  refine ⟨hg, fun r s' hr => ensures_raising ?_ ?_⟩
  · rintro k rfl
    exact ha k s' hr
  · rintro e rfl
    exact he e s' hr

theorem ensures_keyPairFactory {post : σ → Except (EnrollmentExn prim) KeyPair → Prop}
    (hg : guard s .keyPairFactory) (ha : ∀ k s', env s .keyPairFactory (.ok k) s' → post s' (.ok k))
    (he : ∀ e s', env s .keyPairFactory (.error e) s' → post s' (.error (.plain e))) :
    keyPairFactory.Ensures env guard post s := by
  refine ⟨hg, fun r s' hr => ensures_raising ?_ ?_⟩
  · rintro k rfl
    exact ha k s' hr
  · rintro e rfl
    exact he e s' hr

theorem ensures_save {step : EnrollmentStep} {e : Enrollment prim}
    {post : σ → Except (EnrollmentExn prim) Unit → Prop} (hg : guard s (.save e))
    (ha : ∀ s', env s (.save e) (.ok ()) s' → post s' (.ok ()))
    (hn : ∀ x s', env s (.save e) (.error x) s' → x.isException = true →
      post s' (.error (.notSaved step e x)))
    (hb : ∀ x s', env s (.save e) (.error x) s' → x.isException = false → post s' (.error (.plain x))) :
    (save step e).Ensures env guard post s := by
  refine ⟨hg, fun r s' hr => ?_⟩
  cases r with
  | ok u => exact ha s' hr
  | error x =>
    by_cases hx : x.isException = true
    · simp only [hx, if_true]
      exact hn x s' hr hx
    · simp only [hx]
      exact hb x s' hr (by simpa using hx)

theorem ensures_catchBle {p : EnrollmentProgram prim α} {handler : BleError → EnrollmentProgram prim α}
    {post final : σ → Except (EnrollmentExn prim) α → Prop} (h : p.Ensures env guard post s)
    (ha : ∀ s a, post s (.ok a) → final s (.ok a))
    (hb : ∀ s b, post s (.error (.plain (.ble b))) → (handler b).Ensures env guard final s)
    (he : ∀ s e, post s (.error e) → (∀ b, e ≠ .plain (.ble b)) → final s (.error e)) :
    (catchBle p handler).Ensures env guard final s := by
  refine Ensures.tryCatch h ha (fun s e hs => ?_)
  cases e with
  | plain x =>
    cases x with
    | ble b => exact hb s b hs
    | cancelled => exact he s _ hs (by simp)
    | other name => exact he s _ hs (by simp)
  | stopped step enrollment cause => exact he s _ hs (by simp)
  | notSaved step enrollment cause => exact he s _ hs (by simp)

/-! Confirming a step. -/

theorem EnrollmentFields.Valid.confirm {e : EnrollmentFields} (h : e.Valid prim) {step : EnrollmentStep}
    (hs : step ≠ .serverKey) : { e with completed := insert step e.completed }.Valid prim where
  __ := h
  completed := Finset.mem_insert_of_mem h.completed
  serverKey := by
    rw [Finset.mem_insert, or_iff_right (Ne.symm hs)]
    exact h.serverKey

theorem EnrollmentFields.Valid.confirmServerKey {e : EnrollmentFields} (h : e.Valid prim) {key : Bytes}
    (hk : key.length = publicKeyLength) :
    { e with lockServerPublicKey := some key, completed := insert EnrollmentStep.serverKey e.completed }.Valid prim where
  __ := h
  completed := Finset.mem_insert_of_mem h.completed
  serverKey := by simp
  lockServerPublicKey := by simpa using hk

/-- The enrollment once the step is confirmed, by the answer where it has one. -/
def Confirmed (e : Enrollment prim) (step : EnrollmentStep) (response : Response) (next : Enrollment prim) :
    Prop :=
  match step with
  | .serverKey => ∃ key, parseServerKeyUpdate response = .ok key ∧ next.toEnrollmentFields =
      { e.toEnrollmentFields with lockServerPublicKey := some key, completed := insert .serverKey e.completed }
  | step => next.toEnrollmentFields = { e.toEnrollmentFields with completed := insert step e.completed }

/-- The command a step sends. -/
def StepCommand (e : Enrollment prim) (step : EnrollmentStep) (command : CommandPayload) : Prop :=
  match step with
  | .deviceId => deviceIdSet e.deviceId = .ok command
  | .clock => ∃ moment, clockCommand moment = .ok command
  | .serverKey => ∃ key, e.serverPublicKey = .ok key ∧ serverKeyUpdate key = .ok command
  | .ownerKey | .name => deviceNameSet e.name = .ok command

def EnrollmentStep.commandId : EnrollmentStep → CommandId
  | deviceId => .deviceIdSet
  | clock => .currentTimeSet
  | serverKey => .serverKeyUpdate
  | ownerKey | name => .deviceNameSet

theorem deviceNameSet_commandId {name : String} {command : CommandPayload}
    (h : deviceNameSet name = .ok command) : command.commandId = .deviceNameSet := by
  simp only [deviceNameSet, bind_eq_ok, pure_eq_ok, Except.ok.injEq] at h
  obtain ⟨data, -, rfl⟩ := h
  rfl

theorem StepCommand.commandId {e : Enrollment prim} {step : EnrollmentStep} {command : CommandPayload}
    (h : StepCommand e step command) : command.commandId = step.commandId := by
  cases step with
  | ownerKey => exact deviceNameSet_commandId h
  | deviceId =>
    simp only [StepCommand, deviceIdSet, bind_eq_ok, pure_eq_ok, Except.ok.injEq] at h
    obtain ⟨u, -, rfl⟩ := h
    rfl
  | clock =>
    obtain ⟨moment, hm⟩ := h
    simp only [clockCommand, bind_eq_ok] at hm
    obtain ⟨time, -, hc⟩ := hm
    cases hb : writeUInt32 [] time with
    | error x => simp [currentTimeSet, hb] at hc
    | ok data =>
      simp only [currentTimeSet, hb, ok_bind, pure_eq_ok, validated_ok, Except.ok.injEq] at hc
      subst hc
      rfl
  | serverKey =>
    obtain ⟨key, -, hc⟩ := h
    simp only [serverKeyUpdate, bind_eq_ok, pure_eq_ok, Except.ok.injEq] at hc
    obtain ⟨u, -, rfl⟩ := hc
    rfl
  | name => exact deviceNameSet_commandId h

theorem userAuthFinalize_commandId {answer : Bytes} {command : CommandPayload}
    (h : userAuthFinalize answer = .ok command) : command.commandId = .userAuthFinalize := by
  simp only [userAuthFinalize, bind_eq_ok, pure_eq_ok, Except.ok.injEq] at h
  obtain ⟨u, -, rfl⟩ := h
  rfl

theorem userAuthUpdate_commandId {userId credentials : Int} {key : Bytes} {command : CommandPayload}
    (h : userAuthUpdate userId credentials key = .ok command) : command.commandId = .userAuthUpdate := by
  simp only [userAuthUpdate, bind_eq_ok, pure_eq_ok, Except.ok.injEq] at h
  obtain ⟨-, -, -, -, -, -, rfl⟩ := h
  rfl

theorem userAuthFinalize_ok {answer : Bytes} (h : answer.length = challengeLength) :
    userAuthFinalize answer = .ok ⟨.userAuthFinalize, answer⟩ := by
  simp [userAuthFinalize, checkLength, require, h]

theorem userAuthBegin_ok (credential : OwnerCredential) :
    ∃ user : UInt8, (credential.userId = defaultAdminUserId → user = 0) ∧
      userAuthBegin credential.userId credential.deviceId =
        .ok ⟨.userAuthBegin, user :: credential.deviceId⟩ := by
  have hu := credential.userId_range
  refine ⟨UInt8.ofNat credential.userId.toNat, fun hz => by rw [hz]; rfl, ?_⟩
  have hw : writeUInt8 [] credential.userId = .ok [UInt8.ofNat credential.userId.toNat] := by
    obtain ⟨n, hn⟩ := Int.eq_ofNat_of_zero_le hu.1
    rw [hn]
    exact writeUInt8_ok (by omega)
  simp [userAuthBegin, checkLength, require, credential.deviceId_length, hw]

theorem Confirmed.completed {e next : Enrollment prim} {step : EnrollmentStep} {response : Response}
    (h : Confirmed e step response next) : next.completed = insert step e.completed := by
  cases step with
  | serverKey =>
    obtain ⟨key, -, hf⟩ := h
    rw [hf]
  | ownerKey => rw [show next.toEnrollmentFields = _ from h]
  | deviceId => rw [show next.toEnrollmentFields = _ from h]
  | clock => rw [show next.toEnrollmentFields = _ from h]
  | name => rw [show next.toEnrollmentFields = _ from h]

/-- A confirmed step leaves what the lock was given alone. -/
theorem Confirmed.kept {e next : Enrollment prim} {step : EnrollmentStep} {response : Response}
    (h : Confirmed e step response next) : next.deviceId = e.deviceId ∧ next.ownerKey = e.ownerKey ∧
      next.userId = e.userId ∧ next.serverPublicKey = e.serverPublicKey := by
  simp only [Enrollment.serverPublicKey]
  cases step with
  | serverKey =>
    obtain ⟨key, -, hf⟩ := h
    rw [hf]
    exact ⟨rfl, rfl, rfl, rfl⟩
  | ownerKey => rw [show next.toEnrollmentFields = _ from h]; exact ⟨rfl, rfl, rfl, rfl⟩
  | deviceId => rw [show next.toEnrollmentFields = _ from h]; exact ⟨rfl, rfl, rfl, rfl⟩
  | clock => rw [show next.toEnrollmentFields = _ from h]; exact ⟨rfl, rfl, rfl, rfl⟩
  | name => rw [show next.toEnrollmentFields = _ from h]; exact ⟨rfl, rfl, rfl, rfl⟩

theorem ensures_ofFields {fields : EnrollmentFields} (h : fields.Valid prim)
    {post : σ → Except (EnrollmentExn prim) (Enrollment prim) → Prop}
    (ha : ∀ e : Enrollment prim, e.toEnrollmentFields = fields → post s (.ok e)) :
    (raising (validated (Enrollment.ofFields prim fields))).Ensures env guard post s := by
  rw [Enrollment.ofFields_ok h]
  exact ha ⟨fields, h⟩ rfl

theorem ensures_confirm {e : Enrollment prim} {step : EnrollmentStep} (hs : step ≠ .serverKey)
    {post : σ → Except (EnrollmentExn prim) (Enrollment prim) → Prop}
    (ha : ∀ next : Enrollment prim,
      next.toEnrollmentFields = { e.toEnrollmentFields with completed := insert step e.completed } →
      post s (.ok next)) : (confirm e step e.lockServerPublicKey).Ensures env guard post s :=
  ensures_ofFields (e.valid.confirm hs) ha

theorem ensures_confirm_serverKey {e : Enrollment prim} {key : Bytes} (hk : key.length = publicKeyLength)
    {post : σ → Except (EnrollmentExn prim) (Enrollment prim) → Prop}
    (ha : ∀ next : Enrollment prim, next.toEnrollmentFields =
      { e.toEnrollmentFields with lockServerPublicKey := some key, completed := insert .serverKey e.completed } →
      post s (.ok next)) : (confirm e .serverKey (some key)).Ensures env guard post s :=
  ensures_ofFields (e.valid.confirmServerKey hk) ha

/-! The step and the loop over the steps. -/

theorem deviceIdSet_ok {deviceId : Bytes} (h : deviceId.length = deviceIdLength) :
    deviceIdSet deviceId = .ok ⟨.deviceIdSet, deviceId⟩ := by
  simp [deviceIdSet, checkLength, require, h]

theorem serverKeyUpdate_ok {key : Bytes} (h : key.length = publicKeyLength) :
    serverKeyUpdate key = .ok ⟨.serverKeyUpdate, key⟩ := by
  simp [serverKeyUpdate, checkLength, require, h]

theorem encodePublicKey_length (point : Nat × Nat) : (encodePublicKey point).length = publicKeyLength := by
  simp only [encodePublicKey, List.length_append, length_toLittleEndian]
  rfl

theorem keyPairFromPrivateKey_publicKey_length {privateKey : Bytes} {pair : KeyPair}
    (h : keyPairFromPrivateKey prim privateKey = .ok pair) : pair.publicKey.length = publicKeyLength := by
  simp only [keyPairFromPrivateKey, bind_eq_ok, pure_eq_ok, Except.ok.injEq] at h
  obtain ⟨scalar, -, rfl⟩ := h
  exact encodePublicKey_length _

theorem Enrollment.serverPublicKey_ok (e : Enrollment prim) :
    ∃ key, e.serverPublicKey = .ok key ∧ key.length = publicKeyLength := by
  obtain ⟨pair, hp⟩ := e.valid.serverPrivateKey
  exact ⟨pair.publicKey, by simp [serverPublicKey, hp], keyPairFromPrivateKey_publicKey_length hp⟩

/-- Only the clock step has an argument the lock's side can still refuse. -/
theorem ensures_runStep {e : Enrollment prim} {now : Option DateTime} {step : EnrollmentStep}
    (hstep : step ≠ .ownerKey) (hnow : ∀ s r s', env s .now r s' → s' = s) (hgn : guard s .now)
    {post : σ → Except (EnrollmentExn prim) (Enrollment prim) → Prop}
    (hc : ∀ moment x, step = .clock → (∀ m ∈ now, moment = m) →
      (now = none → ∃ (fresh : UtcNow) (s' : σ), env s .now fresh s' ∧ moment = fresh.val) →
      toLockTime moment = .error x → post s (.error (.plain x)))
    (hg : ∀ command, StepCommand e step command → guard s (.send command))
    (ha : ∀ command response s' next, StepCommand e step command → env s (.send command) (.ok response) s' →
      Confirmed e step response next → post s' (.ok next))
    (hp : ∀ command response s' b, StepCommand e step command → env s (.send command) (.ok response) s' →
      step = .serverKey → parseServerKeyUpdate response = .error b → post s' (.error (.plain (.ble b))))
    (he : ∀ command x s', StepCommand e step command → env s (.send command) (.error x) s' →
      post s' (.error (.plain x))) : (runStep e now step).Ensures env guard post s := by
  have hsend : ∀ command, step ≠ .serverKey → StepCommand e step command →
      ((sendCommand (.ok command) : EnrollmentProgram prim Response) >>=
        fun _ => confirm e step e.lockServerPublicKey).Ensures env guard post s := by
    intro command hne hcommand
    refine ⟨hg command hcommand, fun r s' hr => ?_⟩
    cases r with
    | error x => exact he command x s' hcommand hr
    | ok response =>
      refine ensures_confirm hne (fun next hnext => ha command response s' next hcommand hr ?_)
      cases step <;> first | exact hnext | exact absurd rfl hne
  cases step with
  | ownerKey => exact absurd rfl hstep
  | deviceId =>
    have hcommand := deviceIdSet_ok e.valid.deviceId.1
    simp only [runStep, hcommand]
    exact hsend _ (by simp) hcommand
  | clock =>
    have hmoment : ∀ moment, (∀ m ∈ now, moment = m) →
        (now = none → ∃ (fresh : UtcNow) (s' : σ), env s .now fresh s' ∧ moment = fresh.val) →
        ((raising (toLockTime moment) : EnrollmentProgram prim Int) >>= fun time =>
          sendCommand (currentTimeSet time) >>= fun _ =>
            confirm e .clock e.lockServerPublicKey).Ensures env guard post s := by
      intro moment hm hn
      refine Ensures.seq (ensures_raising (fun time ht => ?_) (fun x hx => hc moment x rfl hm hn hx))
      have hcommand := currentTimeSet_ok (toLockTime_lt ht)
      have hsc : StepCommand e .clock ⟨.currentTimeSet, toLittleEndian time.toNat 4⟩ :=
        ⟨moment, by simp [clockCommand, ht, hcommand]⟩
      simp only [hcommand]
      exact hsend _ (by simp) hsc
    cases now with
    | some moment => exact hmoment moment (by simp) (by simp)
    | none =>
      refine ⟨hgn, fun moment s' hr => ?_⟩
      obtain rfl := hnow s moment s' hr
      exact hmoment moment.val (by simp) (fun _ => ⟨moment, _, hr, rfl⟩)
  | serverKey =>
    obtain ⟨key, hkey, hlen⟩ := e.serverPublicKey_ok
    have hcommand := serverKeyUpdate_ok hlen
    have hsc : StepCommand e .serverKey ⟨.serverKeyUpdate, key⟩ := ⟨key, hkey, hcommand⟩
    simp only [runStep, hkey, validated_ok]
    show (request (serverKeyUpdate key) parseServerKeyUpdate >>=
      fun lockKey => confirm e .serverKey (some lockKey)).Ensures env guard post s
    rw [hcommand]
    refine Ensures.seq (ensures_request (by rintro x ⟨⟩) ?_ ?_ ?_ ?_)
    · rintro c ⟨⟩
      exact hg _ hsc
    · rintro c r s' lockKey ⟨⟩ hr hparse
      refine ensures_confirm_serverKey (parseBytes_length hparse) (fun next hnext => ?_)
      exact ha _ r s' next hsc hr ⟨lockKey, hparse, hnext⟩
    · rintro c r s' b ⟨⟩ hr hparse
      exact hp _ r s' b hsc hr rfl hparse
    · rintro c x s' ⟨⟩ hr
      exact he _ x s' hsc hr
  | name =>
    obtain ⟨command, hcommand⟩ := e.valid.name
    simp only [runStep, hcommand]
    exact hsend _ (by simp) hcommand

/-- What leaves the loop when a step's own exception does. -/
def stopping (step : EnrollmentStep) (e : Enrollment prim) : EnrollmentExn prim → EnrollmentExn prim
  | .plain (.ble b) => .stopped step (some e) b
  | x => x

/-- The loop rule: `J` holds between the steps, with the steps still to run,
and `K` from the confirmation of a step to its save. -/
theorem ensures_runSteps {now : Option DateTime} {J : List EnrollmentStep → Enrollment prim → σ → Prop}
    {K : EnrollmentStep → List EnrollmentStep → Enrollment prim → σ → Prop}
    {post : σ → Except (EnrollmentExn prim) (Enrollment prim) → Prop}
    (hstep : ∀ step rest e s, J (step :: rest) e s → (runStep e now step).Ensures env guard (fun s out =>
      match out with
      | .ok next => K step rest next s
      | .error x => post s (.error (stopping step e x))) s)
    (hsave : ∀ step rest e s, K step rest e s → (save step e).Ensures env guard (fun s out =>
      match out with
      | .ok () => J rest e s
      | .error x => post s (.error x)) s)
    (hdone : ∀ e s, J [] e s → post s (.ok e)) {steps : List EnrollmentStep} {e : Enrollment prim}
    (h : J steps e s) : (runSteps now steps e).Ensures env guard post s := by
  induction steps generalizing e s with
  | nil => exact hdone e s h
  | cons step rest ih =>
    have hcaught : (catchBle (runStep e now step) (fun b => .fail (.stopped step (some e) b))).Ensures
        env guard (fun s out =>
          match out with
          | .ok next => K step rest next s
          | .error x => post s (.error x)) s := by
      refine ensures_catchBle (hstep step rest e s h) (fun s a hs => hs) (fun s b hs => hs) ?_
      intro s x hs hne
      cases x with
      | plain y =>
        cases y with
        | ble b => exact absurd rfl (hne b)
        | cancelled => exact hs
        | other name => exact hs
      | stopped step' enrollment cause => exact hs
      | notSaved step' enrollment cause => exact hs
    refine hcaught.bind (fun s next hk => ?_) (fun s x hx => hx)
    exact (hsave step rest next s hk).bind (fun s _ hj => ih hj) (fun s x hx => hx)

theorem ensures_runRemaining {e : Enrollment prim} {now : Option DateTime} {J : Enrollment prim → σ → Prop}
    {K : EnrollmentStep → Enrollment prim → σ → Prop}
    {post : σ → Except (EnrollmentExn prim) (Enrollment prim) → Prop}
    (hstep : ∀ step e s, step ≠ .ownerKey → J e s → (runStep e now step).Ensures env guard (fun s out =>
      match out with
      | .ok next => K step next s
      | .error x => post s (.error (stopping step e x))) s)
    (hsave : ∀ step e s, K step e s → (save step e).Ensures env guard (fun s out =>
      match out with
      | .ok () => J e s
      | .error x => post s (.error x)) s)
    (hdone : ∀ e s, J e s → post s (.ok e)) (h : J e s) : (runRemaining e now).Ensures env guard post s := by
  refine ensures_runSteps (J := fun steps e s => J e s ∧ .ownerKey ∉ steps)
    (K := fun step steps e s => K step e s ∧ .ownerKey ∉ steps) ?_ ?_ ?_ ⟨h, ?_⟩
  · rintro step rest e s ⟨hj, hmem⟩
    have hne : step ≠ .ownerKey := fun he => hmem (he ▸ List.mem_cons_self)
    refine (hstep step e s hne hj).mono ?_
    rintro after (x | next) hout
    · exact hout
    · exact ⟨hout, fun hm => hmem (List.mem_cons_of_mem _ hm)⟩
  · rintro step rest e s ⟨hk, hmem⟩
    refine (hsave step e s hk).mono ?_
    rintro after (x | u) hout
    · exact hout
    · exact ⟨hout, hmem⟩
  · rintro e s ⟨hj, -⟩
    exact hdone e s hj
  · simp [Enrollment.remaining, e.valid.completed]

/-! The login. -/

/-- The login rule: `B` holds from the answer to UserAuthBegin up to UserAuthFinalize. -/
theorem ensures_authenticateOwner {credential : OwnerCredential} {B : σ → Prop}
    {post : σ → Except (EnrollmentExn prim) Unit → Prop}
    (hg : ∀ user, guard s (.send ⟨.userAuthBegin, user :: credential.deviceId⟩))
    (hbegin : ∀ user r s', env s (.send ⟨.userAuthBegin, user :: credential.deviceId⟩) (.ok r) s' → B s')
    (hbeginError : ∀ user x s', env s (.send ⟨.userAuthBegin, user :: credential.deviceId⟩) (.error x) s' →
      post s' (.error (.plain x)))
    (hstop : ∀ s x, B s → post s (.error (.plain x)))
    (hgkeys : ∀ s, B s → guard s .linkKeys) (hkeys : ∀ s r s', B s → env s .linkKeys r s' → B s')
    (hgfinalize : ∀ s c, B s → c.commandId = .userAuthFinalize → guard s (.send c))
    (hfinalize : ∀ s c r s', B s → c.commandId = .userAuthFinalize → env s (.send c) (.ok r) s' →
      post s' (.ok ()))
    (hfinalizeError : ∀ s c x s', B s → c.commandId = .userAuthFinalize → env s (.send c) (.error x) s' →
      post s' (.error (.plain x))) :
    (authenticateOwner credential : EnrollmentProgram prim Unit).Ensures env guard post s := by
  obtain ⟨user, -, hcommand⟩ := userAuthBegin_ok credential
  simp only [authenticateOwner, hcommand]
  refine Ensures.seq (ensures_request (by rintro x ⟨⟩) ?_ ?_ ?_ ?_)
  · rintro c ⟨⟩
    exact hg user
  · rintro c r begun challenge ⟨⟩ hr -
    have hb := hbegin user r begun hr
    refine Ensures.seq (ensures_linkKeys (hgkeys begun hb) ?_ ?_)
    · intro keys keyed hr
      have hb := hkeys begun (.ok keys) keyed hb hr
      refine Ensures.seq (ensures_raising ?_ (fun x _ => hstop keyed x hb))
      intro answer _
      refine Ensures.seq (ensures_sendCommand (fun x _ => hstop keyed _ hb) ?_ ?_ ?_)
      · intro c hc
        exact hgfinalize keyed c hb (userAuthFinalize_commandId hc)
      · intro c r s' hc hr
        exact hfinalize keyed c r s' hb (userAuthFinalize_commandId hc) hr
      · intro c x s' hc hr
        exact hfinalizeError keyed c x s' hb (userAuthFinalize_commandId hc) hr
    · intro x s' hr
      exact hstop s' x (hkeys begun (.error x) s' hb hr)
  · rintro c r begun b ⟨⟩ hr -
    exact hstop begun _ (hbegin user r begun hr)
  · rintro c x s' ⟨⟩ hr
    exact hbeginError user x s' hr

/-- `J` holds after a first login that is refused. -/
theorem ensures_logInToResume {e : Enrollment prim} {J : σ → Prop}
    {post : σ → Except (EnrollmentExn prim) (Option (Enrollment prim)) → Prop}
    (hfirst : (authenticateOwner e.ownerCredential : EnrollmentProgram prim Unit).Ensures env guard (fun s out =>
      match out with
      | .ok () => post s (.ok none)
      | .error x => J s ∧ post s (.error x)) s)
    (hsecond : ∀ s, .deviceId ∉ e.completed → J s →
      (authenticateOwner e.enrolledCredential : EnrollmentProgram prim Unit).Ensures env guard (fun s out =>
        match out with
        | .ok () => ∀ next : Enrollment prim, next.toEnrollmentFields =
            { e.toEnrollmentFields with completed := insert .deviceId e.completed } → post s (.ok (some next))
        | .error x => post s (.error x)) s) : (logInToResume e).Ensures env guard post s := by
  have hnone : ((authenticateOwner e.ownerCredential >>= fun _ => pure none) :
      EnrollmentProgram prim (Option (Enrollment prim))).Ensures env guard (fun s out =>
        post s out ∧ ∀ x, out = .error x → J s) s := by
    refine hfirst.bind (fun s _ hin => ⟨hin, by simp⟩) ?_
    rintro s x ⟨hj, hx⟩
    exact ⟨hx, fun _ _ => hj⟩
  refine ensures_catchBle hnone (fun s a hin => hin.1) ?_ (fun s x hx _ => hx.1)
  rintro s b ⟨hx, hj⟩
  by_cases hb : b.isSecurityError = false
  · rw [if_pos hb]
    exact hx
  · rw [if_neg hb]
    by_cases hmem : .deviceId ∈ e.completed
    · rw [if_pos hmem]
      exact hx
    · rw [if_neg hmem]
      refine (hsecond s hmem (hj _ rfl)).bind ?_ (fun s x hx => hx)
      intro s _ hnext
      exact Ensures.seq (ensures_confirm (by simp) hnext)

/-! The start of `enroll`. -/

/-- What the checks before the first login leave. -/
structure Prepared (prim : Primitives) (arguments : EnrollArguments) (deviceId serverPrivateKey : Bytes) :
    Prop where
  name : ∃ command, deviceNameSet arguments.name = .ok command
  checked : checkDeviceId deviceId = .ok ()
  serverKey : ∃ pair, keyPairFromPrivateKey prim serverPrivateKey = .ok pair
  deviceId : ∀ given ∈ arguments.deviceId, deviceId = given
  serverPrivateKey : ∀ given ∈ arguments.serverPrivateKey, serverPrivateKey = given

/-- `D` ties the device id to the state it was found in, and `K` both results. -/
theorem ensures_prepared {arguments : EnrollArguments} {P : σ → Prop} {D : Bytes → σ → Prop}
    {K : Bytes → Bytes → σ → Prop} (hs : P s) (hD : ∀ d s, D d s → P s) (hK : ∀ d k s, K d k s → P s)
    (hgiven : ∀ given ∈ arguments.deviceId, D given s)
    (hid : arguments.deviceId = none → ∀ r s', env s .newDeviceId r s' → D r.val s')
    (hserver : ∀ given ∈ arguments.serverPrivateKey, ∀ d s, D d s → K d given s)
    (hkey : arguments.serverPrivateKey = none → ∀ d s pair s', D d s → env s .keyPairFactory (.ok pair) s' →
      K d pair.privateKey s')
    (hkeyError : ∀ s x s', P s → env s .keyPairFactory (.error x) s' → P s')
    (hgid : guard s .newDeviceId) (hgkey : ∀ s, P s → guard s .keyPairFactory) :
    (prepare arguments : EnrollmentProgram prim (Bytes × Bytes)).Ensures env guard (fun s out =>
      P s ∧
        match out with
        | .ok p => K p.1 p.2 s ∧ Prepared prim arguments p.1 p.2
        | .error x => ∃ y, x = .plain y) s := by
  have hdevice : ((arguments.deviceId.elim newDeviceId pure : EnrollmentProgram prim Bytes)).Ensures
      env guard (fun s out =>
        P s ∧
          match out with
          | .ok deviceId => D deviceId s ∧ ∀ given ∈ arguments.deviceId, deviceId = given
          | .error x => ∃ y, x = .plain y) s := by
    cases hdevice : arguments.deviceId with
    | some given => exact ⟨hs, hgiven given hdevice, by simp⟩
    | none =>
      refine ⟨hgid, fun r s' hr => ?_⟩
      have hd := hid hdevice r s' hr
      exact ⟨hD r.val s' hd, hd, by simp⟩
  have hkeyed : ∀ d s, D d s → ((arguments.serverPrivateKey.elim (KeyPair.privateKey <$> keyPairFactory) pure :
      EnrollmentProgram prim Bytes)).Ensures env guard (fun s out =>
        P s ∧
          match out with
          | .ok key => K d key s ∧ ∀ given ∈ arguments.serverPrivateKey, key = given
          | .error x => ∃ y, x = .plain y) s := by
    intro d s hd
    cases hkeys : arguments.serverPrivateKey with
    | some given => exact ⟨hD d s hd, hserver given hkeys d s hd, by simp⟩
    | none =>
      refine Ensures.seq (ensures_keyPairFactory (hgkey s (hD d s hd)) ?_ ?_)
      · intro pair s' hr
        have hk := hkey hkeys d s pair s' hd hr
        exact ⟨hK d pair.privateKey s' hk, hk, by simp⟩
      · intro x s' hr
        exact ⟨hkeyError s x s' (hD d s hd) hr, x, rfl⟩
  refine Ensures.seq (ensures_raising ?_ (fun x _ => ⟨hs, x, rfl⟩))
  intro command hname
  refine hdevice.bind ?_ (fun s x h => h)
  rintro s deviceId ⟨hs, hd, hgiven⟩
  refine Ensures.seq (ensures_raising ?_ (fun x _ => ⟨hs, x, rfl⟩))
  intro u hchecked
  refine (hkeyed deviceId s hd).bind ?_ (fun s x h => h)
  rintro s key ⟨hs, hk, hkeyGiven⟩
  refine Ensures.seq (ensures_raising ?_ (fun x _ => ⟨hs, x, rfl⟩))
  intro pair hpair
  exact ⟨hs, hk, ⟨⟨command, validated_eq_ok.mp hname⟩, validated_eq_ok.mp hchecked,
    ⟨pair, validated_eq_ok.mp hpair⟩, hgiven, hkeyGiven⟩⟩

theorem ensures_prepare {arguments : EnrollArguments} {P : σ → Prop} (hs : P s)
    (hid : ∀ s r s', P s → env s .newDeviceId r s' → P s')
    (hkey : ∀ s r s', P s → env s .keyPairFactory r s' → P s')
    (hgid : ∀ s, P s → guard s .newDeviceId) (hgkey : ∀ s, P s → guard s .keyPairFactory) :
    (prepare arguments : EnrollmentProgram prim (Bytes × Bytes)).Ensures env guard (fun s out =>
      P s ∧
        match out with
        | .ok p => Prepared prim arguments p.1 p.2
        | .error x => ∃ y, x = .plain y) s := by
  refine (ensures_prepared (P := P) (D := fun _ => P) (K := fun _ _ => P) hs (fun _ _ h => h) (fun _ _ _ h => h)
    (fun _ _ => hs) (fun _ r s' => hid s r s' hs) (fun _ _ _ _ h => h)
    (fun _ _ s pair s' => hkey s (.ok pair) s') (fun s x s' => hkey s (.error x) s') (hgid s hs) hgkey).mono ?_
  rintro s (x | p) ⟨hs, hout⟩
  · exact ⟨hs, hout⟩
  · exact ⟨hs, hout.2⟩

/-- An argument one of the later commands, or the check of its own, refuses. -/
def BadArguments (prim : Primitives) (arguments : EnrollArguments) : Prop :=
  (∃ v, deviceNameSet arguments.name = .error v) ∨
    (∃ given ∈ arguments.deviceId, ∃ v, checkDeviceId given = .error v) ∨
    ∃ given ∈ arguments.serverPrivateKey, ∃ v, keyPairFromPrivateKey prim given = .error v

theorem Prepared.not_bad {arguments : EnrollArguments} {deviceId serverPrivateKey : Bytes}
    (h : Prepared prim arguments deviceId serverPrivateKey) : ¬ BadArguments prim arguments := by
  rintro (⟨v, hv⟩ | ⟨given, hg, v, hv⟩ | ⟨given, hg, v, hv⟩)
  · obtain ⟨command, hc⟩ := h.name
    simp [hv] at hc
  · have hc := h.checked
    rw [h.deviceId given hg, hv] at hc
    simp at hc
  · obtain ⟨pair, hp⟩ := h.serverKey
    rw [h.serverPrivateKey given hg, hv] at hp
    simp at hp

theorem deriveOwnerKey_ok {privateKey lockKey ownerKey : Bytes}
    (h : deriveOwnerKey prim privateKey lockKey = .ok ownerKey) :
    ownerKey.length = aesKeyLength ∧ ∃ pair, keyPairFromPrivateKey prim privateKey = .ok pair := by
  simp only [deriveOwnerKey, computeSharedSecret, bind_eq_ok, pure_eq_ok, Except.ok.injEq] at h
  obtain ⟨secret, ⟨scalar, hscalar, point, hpoint, rfl⟩, rfl⟩ := h
  refine ⟨?_, keyPair prim scalar, ?_⟩
  · rw [List.length_take, List.length_reverse, prim.exchange_length]
    rfl
  · simp [keyPairFromPrivateKey, validated_eq_ok.mp hscalar]

/-- What `enroll` saves first. -/
def EnrollmentFields.first (name : String) (deviceId serverPrivateKey : Bytes) (updateKey lockKey ownerKey : Bytes) :
    EnrollmentFields :=
  { deviceId := deviceId
    ownerKey := ownerKey
    serverPrivateKey := serverPrivateKey
    name := name
    updatePrivateKey := some updateKey
    lockUpdatePublicKey := some lockKey }

theorem Prepared.valid {arguments : EnrollArguments} {deviceId serverPrivateKey updateKey lockKey ownerKey : Bytes}
    (h : Prepared prim arguments deviceId serverPrivateKey) (hl : lockKey.length = publicKeyLength)
    (ho : deriveOwnerKey prim updateKey lockKey = .ok ownerKey) :
    (EnrollmentFields.first arguments.name deviceId serverPrivateKey updateKey lockKey ownerKey).Valid prim where
  deviceId := checkDeviceId_ok.mp h.checked
  ownerKey := (deriveOwnerKey_ok ho).1
  serverPrivateKey := h.serverKey
  name := h.name
  completed := by simp [EnrollmentFields.first]
  serverKey := by simp [EnrollmentFields.first]
  lockServerPublicKey := by simp [EnrollmentFields.first]
  material := rfl
  updatePrivateKey := by simpa [EnrollmentFields.first] using (deriveOwnerKey_ok ho).2
  lockUpdatePublicKey := by simpa [EnrollmentFields.first] using hl
  userId := by simp [EnrollmentFields.first, defaultAdminUserId]

end OnestiLock
