import Mathlib.Data.Finset.Insert
import OnestiLock.Commands
import OnestiLock.Crypto
import OnestiLock.Program
import OnestiLock.Responses
import OnestiLock.SessionSteps

/-! Owner authentication and enrollment (`ble/client/auth.py` and
`ble/client/enrollment.py`), as programs over a connected session. -/

namespace OnestiLock

def defaultAdminUserId : Int := 0
def defaultDeviceId : Bytes := List.replicate 6 0
def defaultEncryptionKey : Bytes := List.replicate 16 0x11
def ownerCredentials : Int := 0

inductive EnrollmentStep
  | ownerKey | deviceId | clock | serverKey | name
  deriving DecidableEq, Repr

namespace EnrollmentStep

def value : EnrollmentStep → String
  | ownerKey => "owner_key"
  | deviceId => "device_id"
  | clock => "clock"
  | serverKey => "server_key"
  | name => "name"

/-- In the order they run. -/
def all : List EnrollmentStep := [ownerKey, deviceId, clock, serverKey, name]

theorem mem_all (step : EnrollmentStep) : step ∈ all := by
  cases step <;> simp [all]

end EnrollmentStep

structure OwnerCredential where
  userId : Int
  deviceId : Bytes
  key : Bytes
  userId_range : 0 ≤ userId ∧ userId ≤ 0xFF
  deviceId_length : deviceId.length = deviceIdLength
  key_length : key.length = aesKeyLength

/-- `OwnerCredential.__post_init__`. -/
def checkCredential (userId : Int) (deviceId key : Bytes) : Except BleValidationError Unit := do
  require (0 ≤ userId ∧ userId ≤ 0xFF) s!"User id must be 0-255, got {userId}"
  require (deviceId.length = deviceIdLength)
    s!"Device id must be {deviceIdLength} bytes, got {deviceId.length}"
  require (key.length = aesKeyLength) s!"Owner key must be {aesKeyLength} bytes, got {key.length}"

def defaultOwnerCredential : OwnerCredential :=
  ⟨defaultAdminUserId, defaultDeviceId, defaultEncryptionKey, by decide, by decide, by decide⟩

def checkDeviceId (deviceId : Bytes) : Except BleValidationError Unit := do
  require (deviceId.length = deviceIdLength)
    s!"Device id must be {deviceIdLength} bytes, got {deviceId.length}"
  require (deviceId ≠ defaultDeviceId) "Device id must not be all zero, the id of a factory-reset lock"

/-! The stored enrollment. -/

structure EnrollmentFields where
  deviceId : Bytes
  ownerKey : Bytes
  serverPrivateKey : Bytes
  name : String
  lockServerPublicKey : Option Bytes := none
  updatePrivateKey : Option Bytes := none
  lockUpdatePublicKey : Option Bytes := none
  completed : Finset EnrollmentStep := {.ownerKey}
  userId : Int := defaultAdminUserId
  deriving DecidableEq

section

variable (prim : Primitives)

/-- `Enrollment.__post_init__`. -/
def EnrollmentFields.postInit (e : EnrollmentFields) : Except BleValidationError Unit := do
  checkDeviceId e.deviceId
  require (e.ownerKey.length = aesKeyLength)
    s!"Owner key must be {aesKeyLength} bytes, got {e.ownerKey.length}"
  let _ ← keyPairFromPrivateKey prim e.serverPrivateKey
  let _ ← deviceNameSet e.name
  require (.ownerKey ∈ e.completed) "An enrollment always has its owner key step completed"
  require (.serverKey ∈ e.completed ↔ e.lockServerPublicKey.isSome = true)
    "The lock's server public key is there exactly when the server key step is done"
  require (∀ key ∈ e.lockServerPublicKey, key.length = publicKeyLength)
    s!"Lock server public key must be {publicKeyLength} bytes, got {(e.lockServerPublicKey.getD []).length}"
  require (e.updatePrivateKey.isNone = e.lockUpdatePublicKey.isNone)
    "The owner key material is both halves or neither: update_private_key and lock_update_public_key"
  let _ ← e.updatePrivateKey.mapM (keyPairFromPrivateKey prim)
  require (∀ key ∈ e.lockUpdatePublicKey, key.length = publicKeyLength)
    s!"Lock update public key must be {publicKeyLength} bytes, got {(e.lockUpdatePublicKey.getD []).length}"
  checkCredential e.userId e.deviceId e.ownerKey

/-- What the constructor accepts. -/
structure EnrollmentFields.Valid (e : EnrollmentFields) : Prop where
  deviceId : e.deviceId.length = deviceIdLength ∧ e.deviceId ≠ defaultDeviceId
  ownerKey : e.ownerKey.length = aesKeyLength
  serverPrivateKey : ∃ pair, keyPairFromPrivateKey prim e.serverPrivateKey = .ok pair
  name : ∃ command, deviceNameSet e.name = .ok command
  completed : .ownerKey ∈ e.completed
  serverKey : .serverKey ∈ e.completed ↔ e.lockServerPublicKey.isSome = true
  lockServerPublicKey : ∀ key ∈ e.lockServerPublicKey, key.length = publicKeyLength
  material : e.updatePrivateKey.isNone = e.lockUpdatePublicKey.isNone
  updatePrivateKey : ∀ key ∈ e.updatePrivateKey, ∃ pair, keyPairFromPrivateKey prim key = .ok pair
  lockUpdatePublicKey : ∀ key ∈ e.lockUpdatePublicKey, key.length = publicKeyLength
  userId : 0 ≤ e.userId ∧ e.userId ≤ 0xFF

theorem checkDeviceId_ok {deviceId : Bytes} {u : Unit} :
    checkDeviceId deviceId = .ok u ↔ deviceId.length = deviceIdLength ∧ deviceId ≠ defaultDeviceId := by
  simp only [checkDeviceId, bind_eq_ok, require_ok, exists_and_left, exists_const]

theorem checkCredential_ok {userId : Int} {deviceId key : Bytes} {u : Unit} :
    checkCredential userId deviceId key = .ok u ↔ (0 ≤ userId ∧ userId ≤ 0xFF) ∧
      deviceId.length = deviceIdLength ∧ key.length = aesKeyLength := by
  simp only [checkCredential, bind_eq_ok, require_ok, exists_and_left, exists_const]

theorem mapM_isOk {α β ε : Type} {f : α → Except ε β} {x : Option α} :
    (∃ y, x.mapM f = .ok y) ↔ ∀ a ∈ x, ∃ b, f a = .ok b := by
  cases x with
  | none => simp
  | some a => cases h : f a <;> simp [h, Functor.map, Except.map]

theorem EnrollmentFields.postInit_ok {e : EnrollmentFields} : e.postInit prim = .ok () ↔ e.Valid prim := by
  simp only [postInit, bind_eq_ok, require_ok, checkDeviceId_ok, checkCredential_ok, exists_and_left,
    exists_const, exists_and_right, mapM_isOk]
  constructor
  · rintro ⟨h1, h2, h3, h4, h5, h6, h7, h8, h9, h10, h11, -, -⟩
    exact ⟨h1, h2, h3, h4, h5, h6, h7, h8, h9, h10, h11⟩
  · rintro ⟨h1, h2, h3, h4, h5, h6, h7, h8, h9, h10, h11⟩
    exact ⟨h1, h2, h3, h4, h5, h6, h7, h8, h9, h10, h11, h1.1, h2⟩

end

structure Enrollment (prim : Primitives) extends EnrollmentFields where
  valid : toEnrollmentFields.Valid prim
  deriving DecidableEq

namespace Enrollment

variable {prim : Primitives}

/-- The constructor, and so `dataclasses.replace`. -/
def ofFields (prim : Primitives) (fields : EnrollmentFields) :
    Except BleValidationError (Enrollment prim) :=
  match h : fields.postInit prim with
  | .ok () => .ok ⟨fields, (EnrollmentFields.postInit_ok prim).mp h⟩
  | .error e => .error e

theorem ofFields_ok {fields : EnrollmentFields} (h : fields.Valid prim) :
    ofFields prim fields = .ok ⟨fields, h⟩ := by
  have hp := (EnrollmentFields.postInit_ok prim).mpr h
  unfold ofFields
  split
  · rfl
  · rename_i e he
    rw [hp] at he
    exact absurd he (by simp)

/-- The steps it does not have, in order. -/
def remaining (e : Enrollment prim) : List EnrollmentStep :=
  EnrollmentStep.all.filter (fun step => decide (step ∉ e.completed))

def complete (e : Enrollment prim) : Bool := EnrollmentStep.all.all (fun step => decide (step ∈ e.completed))

def enrolledCredential (e : Enrollment prim) : OwnerCredential :=
  ⟨e.userId, e.deviceId, e.ownerKey, e.valid.userId, e.valid.deviceId.1, e.valid.ownerKey⟩

def ownerCredential (e : Enrollment prim) : OwnerCredential :=
  if .deviceId ∈ e.completed then e.enrolledCredential
  else ⟨e.userId, defaultDeviceId, e.ownerKey, e.valid.userId, rfl, e.valid.ownerKey⟩

def serverPublicKey (e : Enrollment prim) : Except BleValidationError Bytes := do
  return (← keyPairFromPrivateKey prim e.serverPrivateKey).publicKey

end Enrollment

/-! An enrollment whose device id step is still to come. -/

def frontDoorFields : EnrollmentFields where
  deviceId := [1, 2, 3, 4, 5, 6]
  ownerKey := List.replicate 16 7
  serverPrivateKey := 1 :: List.replicate 31 0
  name := "Front"

def frontDoor : Enrollment Primitives.scalarOne :=
  ⟨frontDoorFields, (EnrollmentFields.postInit_ok Primitives.scalarOne).mp (by decide +kernel)⟩

/-! The programs. -/

/-- What leaves `enroll`: a plain exception, a `BleEnrollmentError`, or a
`BleEnrollmentNotSavedError`. -/
inductive EnrollmentExn (prim : Primitives)
  | plain (e : Exn)
  | stopped (step : EnrollmentStep) (enrollment : Option (Enrollment prim)) (cause : BleError)
  | notSaved (step : EnrollmentStep) (enrollment : Enrollment prim) (cause : Exn)

/-- The message of a `BleEnrollmentError`. -/
def EnrollmentExn.message {prim : Primitives} : EnrollmentExn prim → Option String
  | plain _ => none
  | stopped step none _ => some s!"Enrollment stopped at step {step.value}: no owner key was saved"
  | stopped step (some _) _ =>
    some s!"Enrollment stopped at step {step.value}: the owner key is set; store the enrollment and resume it"
  | notSaved step _ _ =>
    some s!"Enrollment step {step.value} went through but saving it failed, so nothing more was sent. This enrollment is the only copy of the owner key: store it some other way"

inductive EnrollmentOp (prim : Primitives)
  | send (command : CommandPayload)
  | linkKeys
  | save (enrollment : Enrollment prim)
  | newDeviceId
  | keyPairFactory
  | now

/-- A random device id, never the factory one. -/
abbrev NewDeviceId := { deviceId : Bytes // checkDeviceId deviceId = .ok () }

/-- `datetime.now(UTC)`. -/
abbrev UtcNow := { moment : DateTime // ∃ within, moment.zone = .offset 0 within }

/-! Values for concrete runs: 2026-01-01 00:00, a device id and link keys. -/

def newYear : Nat := 739616 * 86400000000

theorem newYear_lt : newYear < datetimeSpan := by decide

def newYearUtc : UtcNow := ⟨⟨newYear, .offset 0 (by decide), newYear_lt⟩, by decide, rfl⟩

def firstDeviceId : NewDeviceId := ⟨[0, 0, 0, 0, 0, 1], by decide⟩

def zeroLinkKeys : LinkKeys := ⟨List.replicate 16 0, List.replicate 16 0, rfl, rfl⟩

def EnrollmentReply (prim : Primitives) : EnrollmentOp prim → Type
  | .send _ => Except Exn Response
  | .linkKeys => Except Exn LinkKeys
  | .save _ => Except Exn Unit
  | .newDeviceId => NewDeviceId
  | .keyPairFactory => Except Exn KeyPair
  | .now => UtcNow

abbrev EnrollmentProgram (prim : Primitives) (α : Type) :=
  Program (EnrollmentOp prim) (EnrollmentReply prim) (EnrollmentExn prim) α

section

variable {prim : Primitives}

def raising {α : Type} : Except Exn α → EnrollmentProgram prim α
  | .ok a => .done a
  | .error e => .fail (.plain e)

/-- `session.send`. -/
def sendCommand (command : Except BleValidationError CommandPayload) : EnrollmentProgram prim Response :=
  match command with
  | .ok command => .call (.send command) raising
  | .error e => .fail (.plain (.ble (.validation e)))

def linkKeys : EnrollmentProgram prim LinkKeys := .call .linkKeys raising

def keyPairFactory : EnrollmentProgram prim KeyPair := .call .keyPairFactory raising

def newDeviceId : EnrollmentProgram prim Bytes := .call .newDeviceId (fun fresh => .done fresh.val)

def datetimeNow : EnrollmentProgram prim DateTime := .call .now (fun moment => .done moment.val)

/-- `session.request`. -/
def request {α : Type} (command : Except BleValidationError CommandPayload)
    (parse : Response → BleResult α) : EnrollmentProgram prim α := do
  raising (liftBle (parse (← sendCommand command)))

/-- `except BleError`. -/
def catchBle {α : Type} (p : EnrollmentProgram prim α) (handler : BleError → EnrollmentProgram prim α) :
    EnrollmentProgram prim α :=
  p.tryCatch (fun e =>
    match e with
    | .plain (.ble b) => handler b
    | e => .fail e)

def authenticateOwner (credential : OwnerCredential) : EnrollmentProgram prim Unit := do
  let challenge ← request (userAuthBegin credential.userId credential.deviceId) parseUserAuthBegin
  let keys ← linkKeys
  let answer ← raising (answerOwnerChallenge prim challenge credential.key keys.iv)
  let _ ← sendCommand (userAuthFinalize answer)

/-- `_save`. -/
def save (step : EnrollmentStep) (enrollment : Enrollment prim) : EnrollmentProgram prim Unit :=
  .call (.save enrollment) (fun saved =>
    match saved with
    | .ok () => .done ()
    | .error e => .fail (if e.isException then .notSaved step enrollment e else .plain e))

/-- `replace(enrollment, completed=enrollment.completed | {step})`. -/
def confirm (enrollment : Enrollment prim) (step : EnrollmentStep) (lockKey : Option Bytes) :
    EnrollmentProgram prim (Enrollment prim) :=
  raising (validated (Enrollment.ofFields prim { enrollment.toEnrollmentFields with
    lockServerPublicKey := lockKey
    completed := insert step enrollment.completed }))

/-- `_run_step`. -/
def runStep (enrollment : Enrollment prim) (now : Option DateTime) (step : EnrollmentStep) :
    EnrollmentProgram prim (Enrollment prim) :=
  match step with
  | .deviceId => do
    let _ ← sendCommand (deviceIdSet enrollment.deviceId)
    confirm enrollment step enrollment.lockServerPublicKey
  | .clock => do
    let moment ← now.elim datetimeNow pure
    let time ← raising (toLockTime moment)
    let _ ← sendCommand (currentTimeSet time)
    confirm enrollment step enrollment.lockServerPublicKey
  | .serverKey => do
    let key ← raising (validated enrollment.serverPublicKey)
    let lockKey ← request (serverKeyUpdate key) parseServerKeyUpdate
    confirm enrollment step (some lockKey)
  | .ownerKey | .name => do
    let _ ← sendCommand (deviceNameSet enrollment.name)
    confirm enrollment step enrollment.lockServerPublicKey

/-- The loop of `_run_remaining`. -/
def runSteps (now : Option DateTime) :
    List EnrollmentStep → Enrollment prim → EnrollmentProgram prim (Enrollment prim)
  | [], enrollment => .done enrollment
  | step :: rest, enrollment => do
    let next ← catchBle (runStep enrollment now step) (fun b => .fail (.stopped step (some enrollment) b))
    save step next
    runSteps now rest next

def runRemaining (enrollment : Enrollment prim) (now : Option DateTime) :
    EnrollmentProgram prim (Enrollment prim) :=
  runSteps now enrollment.remaining enrollment

structure EnrollArguments where
  name : String
  deviceId : Option Bytes
  serverPrivateKey : Option Bytes
  now : Option DateTime

/-- The arguments of `enroll` once it has checked them and filled them in. -/
def prepare (arguments : EnrollArguments) : EnrollmentProgram prim (Bytes × Bytes) := do
  let _ ← raising (validated (deviceNameSet arguments.name))
  let deviceId ← arguments.deviceId.elim newDeviceId pure
  raising (validated (checkDeviceId deviceId))
  let serverPrivateKey ← arguments.serverPrivateKey.elim (KeyPair.privateKey <$> keyPairFactory) pure
  let _ ← raising (validated (keyPairFromPrivateKey prim serverPrivateKey))
  pure (deviceId, serverPrivateKey)

/-- UserAuthUpdate, up to the derived owner key: the lock's key, then ours. -/
def updateOwnerKey (updateKey : KeyPair) : EnrollmentProgram prim (Bytes × Bytes) := do
  let lockKey ← request (userAuthUpdate defaultAdminUserId ownerCredentials updateKey.publicKey)
    parseUserAuthUpdate
  let ownerKey ← raising (deriveOwnerKey prim updateKey.privateKey lockKey)
  pure (lockKey, ownerKey)

def enroll (arguments : EnrollArguments) : EnrollmentProgram prim (Enrollment prim) := do
  let (deviceId, serverPrivateKey) ← prepare arguments
  authenticateOwner defaultOwnerCredential
  let updateKey ← keyPairFactory
  let (lockKey, ownerKey) ← catchBle (updateOwnerKey updateKey)
    (fun b => .fail (.stopped .ownerKey none b))
  let enrollment ← raising (validated (Enrollment.ofFields prim
    { deviceId := deviceId
      ownerKey := ownerKey
      serverPrivateKey := serverPrivateKey
      name := arguments.name
      updatePrivateKey := some updateKey.privateKey
      lockUpdatePublicKey := some lockKey }))
  save .ownerKey enrollment
  runRemaining enrollment arguments.now

/-- `_log_in_to_resume`; `none` is the enrollment it was given. -/
def logInToResume (enrollment : Enrollment prim) : EnrollmentProgram prim (Option (Enrollment prim)) :=
  catchBle (authenticateOwner enrollment.ownerCredential >>= fun _ => pure none) (fun b =>
    if b.isSecurityError = false then .fail (.plain (.ble b))
    else if .deviceId ∈ enrollment.completed then .fail (.plain (.ble b))
    else do
      authenticateOwner enrollment.enrolledCredential
      let loggedIn ← confirm enrollment .deviceId enrollment.lockServerPublicKey
      pure (some loggedIn))

def resumeEnrollment (enrollment : Enrollment prim) (now : Option DateTime) :
    EnrollmentProgram prim (Enrollment prim) :=
  if enrollment.complete then .done enrollment
  else do
    match ← logInToResume enrollment with
    | none => runRemaining enrollment now
    | some loggedIn =>
      save .deviceId loggedIn
      runRemaining loggedIn now

end

end OnestiLock
