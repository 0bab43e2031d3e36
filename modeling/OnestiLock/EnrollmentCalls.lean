import OnestiLock.EnrollmentContext
import OnestiLock.EnrollmentRules

/-! Which commands each part of an enrollment sends, and that a save that
fails is the last thing an enrollment does. -/

namespace OnestiLock

open Program

variable {prim : Primitives} {α : Type}

/-- Nothing is saved, and only these commands are sent. The link keys are for
the answer to a challenge. -/
def SendsOnly (ids : List CommandId) : EnrollmentOp prim → Prop
  | .send command => command.commandId ∈ ids
  | .linkKeys => .userAuthFinalize ∈ ids
  | .save _ => False
  | .newDeviceId | .keyPairFactory | .now => True

theorem calls_raising {ids : List CommandId} (x : Except Exn α) :
    (raising x : EnrollmentProgram prim α).Calls (SendsOnly ids) := by
  cases x <;> trivial

theorem calls_sendCommand {ids : List CommandId} {command : Except BleValidationError CommandPayload}
    (h : ∀ c, command = .ok c → c.commandId ∈ ids) :
    (sendCommand command : EnrollmentProgram prim Response).Calls (SendsOnly ids) := by
  cases command with
  | error e => trivial
  | ok c => exact ⟨h c rfl, fun r => calls_raising r⟩

theorem calls_request {ids : List CommandId} {command : Except BleValidationError CommandPayload}
    {parse : Response → BleResult α} (h : ∀ c, command = .ok c → c.commandId ∈ ids) :
    (request command parse : EnrollmentProgram prim α).Calls (SendsOnly ids) :=
  (calls_sendCommand h).bind (fun _ => calls_raising _)

theorem calls_catchBle {ids : List CommandId} {p : EnrollmentProgram prim α}
    {handler : BleError → EnrollmentProgram prim α} (h : p.Calls (SendsOnly ids))
    (hh : ∀ b, (handler b).Calls (SendsOnly ids)) : (catchBle p handler).Calls (SendsOnly ids) := by
  refine h.tryCatch (fun e => ?_)
  cases e with
  | plain x =>
    cases x with
    | ble b => exact hh b
    | _ => trivial
  | _ => trivial

theorem userAuthBegin_commandId {userId : Int} {deviceId : Bytes} {command : CommandPayload}
    (h : userAuthBegin userId deviceId = .ok command) : command.commandId = .userAuthBegin := by
  simp only [userAuthBegin, bind_eq_ok, pure_eq_ok, Except.ok.injEq] at h
  obtain ⟨-, -, -, -, rfl⟩ := h
  rfl

def loginCommands : List CommandId := [.userAuthBegin, .userAuthFinalize]

def stepCommands : List CommandId := [.deviceIdSet, .currentTimeSet, .serverKeyUpdate, .deviceNameSet]

theorem calls_authenticateOwner (credential : OwnerCredential) :
    (authenticateOwner credential : EnrollmentProgram prim Unit).Calls (SendsOnly loginCommands) := by
  have hbegin : ∀ c, userAuthBegin credential.userId credential.deviceId = .ok c → c.commandId ∈ loginCommands := by
    intro c hc
    rw [userAuthBegin_commandId hc]
    decide
  have hfinalize : ∀ answer c, userAuthFinalize answer = .ok c → c.commandId ∈ loginCommands := by
    intro answer c hc
    rw [userAuthFinalize_commandId hc]
    decide
  refine (calls_request hbegin).bind (fun challenge => ?_)
  have hmem : CommandId.userAuthFinalize ∈ loginCommands := by decide
  have hkeys : (linkKeys : EnrollmentProgram prim LinkKeys).Calls (SendsOnly loginCommands) :=
    ⟨hmem, fun r => calls_raising r⟩
  refine hkeys.bind (fun keys => ?_)
  refine (calls_raising _).bind (fun answer => ?_)
  exact (calls_sendCommand (hfinalize answer)).bind (fun _ => trivial)

theorem calls_updateOwnerKey (pair : KeyPair) :
    (updateOwnerKey pair : EnrollmentProgram prim (Bytes × Bytes)).Calls (SendsOnly [.userAuthUpdate]) := by
  refine (calls_request (fun c hc => ?_)).bind (fun lockKey => ?_)
  · rw [userAuthUpdate_commandId hc]
    decide
  · exact (calls_raising _).bind (fun _ => trivial)

theorem calls_confirm {ids : List CommandId} (e : Enrollment prim) (step : EnrollmentStep) (key : Option Bytes) :
    (confirm e step key).Calls (SendsOnly ids) :=
  calls_raising _

theorem calls_runStep (e : Enrollment prim) (now : Option DateTime) (step : EnrollmentStep) :
    (runStep e now step).Calls (SendsOnly stepCommands) := by
  have hsend : ∀ {command : Except BleValidationError CommandPayload},
      (∀ c, command = .ok c → c.commandId ∈ stepCommands) → ∀ key,
      (sendCommand command >>= fun _ => confirm e step key).Calls (SendsOnly stepCommands) :=
    fun h key => (calls_sendCommand h).bind (fun _ => calls_confirm e step key)
  have hname : ∀ c, deviceNameSet e.name = .ok c → c.commandId ∈ stepCommands := by
    intro c hc
    rw [deviceNameSet_commandId hc]
    decide
  cases step with
  | ownerKey => exact hsend hname _
  | deviceId =>
    refine hsend (fun c hc => ?_) _
    rw [(show StepCommand e .deviceId c from hc).commandId]
    decide
  | clock =>
    refine Calls.bind (p := now.elim datetimeNow pure) ?_ (fun moment => ?_)
    · cases now with
      | none => exact ⟨trivial, fun _ => trivial⟩
      | some moment => trivial
    · refine (calls_raising _).bind (fun time => hsend (fun c hc => ?_) _)
      simp only [currentTimeSet, bind_eq_ok, pure_eq_ok, Except.ok.injEq] at hc
      obtain ⟨-, -, rfl⟩ := hc
      show CommandId.currentTimeSet ∈ stepCommands
      decide
  | serverKey =>
    refine (calls_raising _).bind (fun key => ?_)
    refine (calls_request (fun c hc => ?_)).bind (fun lockKey => calls_confirm e _ _)
    simp only [serverKeyUpdate, bind_eq_ok, pure_eq_ok, Except.ok.injEq] at hc
    obtain ⟨-, -, rfl⟩ := hc
    show CommandId.serverKeyUpdate ∈ stepCommands
    decide
  | name => exact hsend hname _

theorem calls_prepare (arguments : EnrollArguments) :
    (prepare arguments : EnrollmentProgram prim (Bytes × Bytes)).Calls (SendsOnly []) := by
  have hdevice : (arguments.deviceId.elim newDeviceId pure : EnrollmentProgram prim Bytes).Calls (SendsOnly []) := by
    cases arguments.deviceId with
    | none => exact ⟨trivial, fun _ => trivial⟩
    | some deviceId => trivial
  have hserver : (arguments.serverPrivateKey.elim (KeyPair.privateKey <$> keyPairFactory) pure :
      EnrollmentProgram prim Bytes).Calls (SendsOnly []) := by
    cases arguments.serverPrivateKey with
    | none => exact ⟨trivial, fun r => (calls_raising r).bind (fun _ => trivial)⟩
    | some key => trivial
  refine (calls_raising _).bind (fun _ => ?_)
  refine hdevice.bind (fun deviceId => ?_)
  refine (calls_raising _).bind (fun _ => ?_)
  refine hserver.bind (fun key => ?_)
  exact (calls_raising _).bind (fun _ => trivial)

theorem calls_second (e : Enrollment prim) :
    (do
      authenticateOwner e.enrolledCredential
      let loggedIn ← confirm e .deviceId e.lockServerPublicKey
      pure (some loggedIn) : EnrollmentProgram prim (Option (Enrollment prim))).Calls (SendsOnly loginCommands) :=
  (calls_authenticateOwner _).bind (fun _ => (calls_confirm e _ _).bind (fun _ => trivial))

theorem calls_logInToResume (e : Enrollment prim) : (logInToResume e).Calls (SendsOnly loginCommands) := by
  refine calls_catchBle ((calls_authenticateOwner _).bind (fun _ => trivial)) (fun b => ?_)
  split_ifs
  · trivial
  · trivial
  · exact calls_second e

/-! A save that fails. -/

/-- Whether a save has failed. None is cancelled. -/
def tripping : Surroundings (EnrollmentOp prim) (EnrollmentReply prim) Bool := fun tripped op reply after =>
  match op, reply with
  | .save _, .error x => x ≠ .cancelled ∧ after = true
  | _, _ => after = tripped

/-- Nothing is called after a failed save, and its end is no cancellation. -/
abbrev EndsTripped (p : EnrollmentProgram prim α) : Prop :=
  p.Ensures tripping (fun tripped _ => tripped = false)
    (fun tripped out => tripped = true → out ≠ .error (.plain .cancelled)) false

theorem untripped {ids : List CommandId} {p : EnrollmentProgram prim α} (h : p.Calls (SendsOnly ids)) :
    p.Ensures tripping (fun tripped _ => tripped = false) (fun tripped _ => tripped = false) false := by
  refine h.ensures (fun s op hs _ => hs) ?_ rfl
  intro s op r s' hs hop hr
  cases op with
  | save e => exact absurd hop id
  | send command => exact (show s' = s from hr).trans hs
  | linkKeys => exact (show s' = s from hr).trans hs
  | newDeviceId => exact (show s' = s from hr).trans hs
  | keyPairFactory => exact (show s' = s from hr).trans hs
  | now => exact (show s' = s from hr).trans hs

/-- The rule of sequence for a first part that saves nothing. -/
theorem endsTripped_bind {β : Type} {ids : List CommandId} {p : EnrollmentProgram prim α}
    {f : α → EnrollmentProgram prim β} (h : p.Calls (SendsOnly ids)) (hf : ∀ a, EndsTripped (f a)) :
    EndsTripped (p >>= f) := by
  refine (untripped h).bind ?_ ?_
  · rintro tripped a rfl
    exact hf a
  · rintro tripped x rfl
    simp

theorem save_tripping (step : EnrollmentStep) (e : Enrollment prim) :
    (save step e).Ensures tripping (fun tripped _ => tripped = false) (fun tripped out =>
      match out with
      | .ok () => tripped = false
      | .error x => x ≠ .plain .cancelled) false := by
  refine ensures_save rfl (fun s' hs => hs) ?_ ?_
  · rintro x s' - -
    simp
  · rintro x s' ⟨hx, -⟩ -
    simpa using hx

theorem endsTripped_runRemaining (e : Enrollment prim) (now : Option DateTime) :
    EndsTripped (runRemaining e now) := by
  refine ensures_runSteps (J := fun _ _ tripped => tripped = false) (K := fun _ _ _ tripped => tripped = false)
    ?_ ?_ ?_ rfl
  · rintro step rest e tripped rfl
    refine (untripped (calls_runStep e now step)).mono ?_
    rintro tripped (x | next) rfl
    · simp
    · rfl
  · rintro step rest next tripped rfl
    refine (save_tripping step next).mono ?_
    rintro tripped (x | ⟨⟩) hs
    · rintro -
      simpa using hs
    · exact hs
  · rintro e tripped rfl
    simp

theorem endsTripped_save_runRemaining (step : EnrollmentStep) (e : Enrollment prim) (now : Option DateTime) :
    EndsTripped (save step e >>= fun _ => runRemaining e now) := by
  refine (save_tripping step e).bind ?_ ?_
  · rintro tripped ⟨⟩ rfl
    exact endsTripped_runRemaining e now
  · rintro tripped x hx -
    simpa using hx

theorem endsTripped_enroll (arguments : EnrollArguments) :
    EndsTripped (enroll arguments : EnrollmentProgram prim (Enrollment prim)) := by
  have hpair : (keyPairFactory : EnrollmentProgram prim KeyPair).Calls (SendsOnly []) :=
    ⟨trivial, fun r => calls_raising r⟩
  have hraising : ∀ x : Except Exn (Enrollment prim),
      (raising x : EnrollmentProgram prim (Enrollment prim)).Calls (SendsOnly []) := calls_raising
  refine endsTripped_bind (calls_prepare arguments) (fun prepared => ?_)
  refine endsTripped_bind (calls_authenticateOwner _) (fun _ => ?_)
  refine endsTripped_bind hpair (fun pair => ?_)
  refine endsTripped_bind (calls_catchBle (calls_updateOwnerKey pair) (fun _ => trivial)) (fun keys => ?_)
  refine endsTripped_bind (hraising _) (fun e => ?_)
  exact endsTripped_save_runRemaining .ownerKey e arguments.now

theorem endsTripped_resumeEnrollment (e : Enrollment prim) (now : Option DateTime) :
    EndsTripped (resumeEnrollment e now) := by
  by_cases hc : e.complete = true
  · rw [resumeEnrollment, if_pos hc]
    rintro ⟨⟩
  · rw [resumeEnrollment, if_neg hc]
    refine endsTripped_bind (calls_logInToResume e) (fun loggedIn => ?_)
    cases loggedIn with
    | none => exact endsTripped_runRemaining e now
    | some loggedIn => exact endsTripped_save_runRemaining .deviceId loggedIn now

end OnestiLock
