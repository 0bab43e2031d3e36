import OnestiLock.EnrollmentRules

/-! The lock in software that the tests enroll (`tests/ble/fake_lock.py`), as
far as an enrollment uses it, and a session connected to it. -/

namespace OnestiLock

open Program

/-- ECDH gives both sides one secret, over points that fit the wire. -/
structure EcdhLaws (prim : Primitives) : Prop where
  onCurve : ∀ k, prim.validScalar k = true → prim.onCurve (prim.publicNumbers k) = true
  coordinates : ∀ k, prim.validScalar k = true →
    (prim.publicNumbers k).1 < 2 ^ 256 ∧ (prim.publicNumbers k).2 < 2 ^ 256
  commutes : ∀ j k, prim.validScalar j = true → prim.validScalar k = true →
    prim.exchange j (prim.publicNumbers k) = prim.exchange k (prim.publicNumbers j)

/-- The lasting state. The key pairs and the challenge are fixed. -/
structure FakeLock (prim : Primitives) where
  firmware : Bytes
  model : UInt8
  ownerKey : Bytes
  deviceId : Bytes
  name : String
  clock : Option Nat
  serverPublicKey : Option Bytes
  linkPrivateKey : Bytes
  updatePrivateKey : Bytes
  serverPrivateKey : Bytes
  challenge : Bytes
  linkPrivateKey_valid : ∃ pair, keyPairFromPrivateKey prim linkPrivateKey = .ok pair
  updatePrivateKey_valid : ∃ pair, keyPairFromPrivateKey prim updatePrivateKey = .ok pair
  serverPrivateKey_valid : ∃ pair, keyPairFromPrivateKey prim serverPrivateKey = .ok pair
  challenge_length : challenge.length = challengeLength

/-- As a factory-reset lock starts out. -/
structure FakeLock.Factory {prim : Primitives} (lock : FakeLock prim) : Prop where
  ownerKey : lock.ownerKey = defaultEncryptionKey
  deviceId : lock.deviceId = defaultDeviceId

/-- The lock's side of one connection. -/
structure FakeTransport where
  linkIv : Option Bytes
  begunDeviceId : Option Bytes
  authenticated : Bool

def FakeTransport.new : FakeTransport := ⟨none, none, false⟩

section

variable {prim : Primitives}

/-- Raw ECDH, reversed. -/
def ecdhReversed (prim : Primitives) (privateKey publicKey : Bytes) : Except Exn Bytes :=
  let point := (ofLittleEndian (publicKey.take coordinateLength), ofLittleEndian (publicKey.drop coordinateLength))
  if prim.onCurve point then .ok (prim.exchange (ofLittleEndian privateKey) point).reverse
  else .error (.other "ValueError")

def publicKeyOf (prim : Primitives) (privateKey : Bytes) : Except Exn Bytes := do
  return (← validated (keyPairFromPrivateKey prim privateKey)).publicKey

/-- `_answer`. -/
def answer (received : Command) (status : Nat) (payload : Bytes) : Response :=
  ⟨received.commandId.value, received.commandRef, status, payload⟩

abbrev Handled (prim : Primitives) := Except Exn (FakeLock prim × FakeTransport × Response)

namespace FakeLock

variable (lock : FakeLock prim) (transport : FakeTransport) (received : Command)

def onExchangeKeyPubM : Handled prim := do
  let (phonePublicKey, _) ← parsed (readBytes publicKeyLength received.payload)
  let lockPublicKey ← publicKeyOf prim lock.linkPrivateKey
  let link ← validated (LinkKeys.fromSharedSecret (← ecdhReversed prim lock.linkPrivateKey phonePublicKey))
  return (lock, { transport with linkIv := some link.iv }, answer received statusSuccess lockPublicKey)

def onDeviceModelGet : Handled prim := .ok (lock, transport, answer received statusSuccess [lock.model])

def onUserAuthBegin : Handled prim := do
  let (userId, reader) ← parsed (readUInt8 received.payload)
  let (deviceId, _) ← parsed (readBytes deviceIdLength reader)
  return (lock,
    { transport with authenticated := false, begunDeviceId := if userId = 0 then some deviceId else none },
    answer received statusSuccess lock.challenge)

/-- The answer the lock wants to its challenge. -/
def expectedAnswer (iv : Bytes) : Except Exn Bytes := do
  let aes ← validated (Aes128Cbc.new lock.ownerKey iv false)
  let plain ← parsed (aes.decrypt prim lock.challenge)
  return aes.encrypt prim (plain.map (· ^^^ 0xFF))

def onUserAuthFinalize : Handled prim := do
  let (given, _) ← parsed (readBytes challengeLength received.payload)
  match transport.linkIv with
  | none => .error (.other "TypeError")
  | some iv =>
    let expected ← lock.expectedAnswer iv
    if transport.begunDeviceId ≠ some lock.deviceId ∨ given ≠ expected then
      return (lock, transport, answer received statusSecurityError [])
    else
      return (lock, { transport with authenticated := true }, answer received statusSuccess [1])

def onUserAuthUpdate : Handled prim := do
  let (_, reader) ← parsed (readUInt8 received.payload)
  let (_, reader) ← parsed (readUInt8 reader)
  let (phonePublicKey, _) ← parsed (readBytes publicKeyLength reader)
  let secret ← ecdhReversed prim lock.updatePrivateKey phonePublicKey
  let lockPublicKey ← publicKeyOf prim lock.updatePrivateKey
  return ({ lock with ownerKey := secret.take 16 }, transport, answer received statusSuccess lockPublicKey)

def onDeviceIdSet : Handled prim := do
  let (deviceId, _) ← parsed (readBytes deviceIdLength received.payload)
  return ({ lock with deviceId := deviceId }, transport, answer received statusSuccess [])

def onCurrentTimeSet : Handled prim := do
  let (clock, _) ← parsed (readUInt32 received.payload)
  return ({ lock with clock := some clock }, transport, answer received statusSuccess [])

def onServerKeyUpdate : Handled prim := do
  let (serverPublicKey, _) ← parsed (readBytes publicKeyLength received.payload)
  let lockPublicKey ← publicKeyOf prim lock.serverPrivateKey
  return ({ lock with serverPublicKey := some serverPublicKey }, transport,
    answer received statusSuccess lockPublicKey)

def onDeviceNameSet : Handled prim := do
  let (name, _) ← parsed (readString deviceNameMaxLength received.payload)
  return ({ lock with name := name }, transport, answer received statusSuccess [])

def openCommands : List CommandId := [.exchangeKeyPubM, .deviceModelGet, .userAuthBegin, .userAuthFinalize]

/-- `_handle`. A command that no enrollment sends is outside the model. -/
def handle : Handled prim :=
  if received.commandId ∉ openCommands ∧ transport.authenticated = false then
    .ok (lock, transport, answer received statusSecurityError [])
  else match received.commandId with
  | .exchangeKeyPubM => lock.onExchangeKeyPubM transport received
  | .deviceModelGet => lock.onDeviceModelGet transport received
  | .userAuthBegin => lock.onUserAuthBegin transport received
  | .userAuthFinalize => lock.onUserAuthFinalize transport received
  | .userAuthUpdate => lock.onUserAuthUpdate transport received
  | .deviceIdSet => lock.onDeviceIdSet transport received
  | .currentTimeSet => lock.onCurrentTimeSet transport received
  | .serverKeyUpdate => lock.onServerKeyUpdate transport received
  | .deviceNameSet => lock.onDeviceNameSet transport received
  | _ => .error (.other "NotImplementedError")

end FakeLock

/-- A connected session. -/
structure Linked where
  firmware : FirmwareVersion
  model : Option Nat
  keys : LinkKeys
  refs : CommandRefCounter

/-- The session, the lock behind it, and the enrollment last saved. -/
structure Scene (prim : Primitives) where
  lock : FakeLock prim
  transport : FakeTransport
  session : Linked
  saved : Option (Enrollment prim)

/-- What becomes of one command: it never reaches the lock, or the lock
carries it out and its answer is lost, or the answer arrives. -/
inductive Fate
  | unreached (e : Exn)
  | lost (e : Exn)
  | answered

namespace Scene

/-- The lock has a command. -/
def deliver (s : Scene prim) (command : CommandPayload) : Handled prim :=
  s.lock.handle s.transport (command.withRef s.session.refs.next.1)

def after (s : Scene prim) (lock : FakeLock prim) (transport : FakeTransport) : Scene prim :=
  { s with lock := lock, transport := transport, session := { s.session with refs := s.session.refs.next.2 } }

/-- `Session.send`, down to the lock and back. -/
def send (s : Scene prim) (command : CommandPayload) (fate : Fate) : Except Exn Response × Scene prim :=
  let feature := availability command s.session.firmware s.session.model
  if feature.isAvailable = false then
    (.error (.ble (.featureUnavailable command.commandId feature s.session.firmware s.session.model)), s)
  else match fate, s.deliver command with
  | .unreached e, _ => (.error e, s.after s.lock s.transport)
  | .lost e, .error _ => (.error e, s.after s.lock s.transport)
  | .lost e, .ok (lock, transport, _) => (.error e, s.after lock transport)
  | .answered, .error e => (.error e, s.after s.lock s.transport)
  | .answered, .ok (lock, transport, response) =>
    (liftBle (checkAnswer command.commandId response), s.after lock transport)

/-- A key pair factory makes a pair from a valid scalar, or raises. -/
def faulty : Surroundings (EnrollmentOp prim) (EnrollmentReply prim) (Scene prim)
  | s, .send command, reply, s' => ∃ fate, (reply, s') = s.send command fate
  | s, .linkKeys, reply, s' => reply = .ok s.session.keys ∧ s' = s
  | s, .save e, reply, s' => reply = .ok () ∧ s' = { s with saved := some e }
  | s, .newDeviceId, _, s' => s' = s
  | s, .keyPairFactory, reply, s' =>
    (∀ pair, reply = .ok pair → keyPairFromPrivateKey prim pair.privateKey = .ok pair) ∧ s' = s
  | s, .now, _, s' => s' = s

/-- Every command is answered, and the host's clock shows the moment. -/
def faultless (moment : UtcNow) (s : Scene prim) : (op : EnrollmentOp prim) → EnrollmentReply prim op × Scene prim
  | .send command => s.send command .answered
  | .linkKeys => (.ok s.session.keys, s)
  | .save e => (.ok (), { s with saved := some e })
  | .newDeviceId => (firstDeviceId, s)
  | .keyPairFactory => (.error (.other "AssertionError"), s)
  | .now => (moment, s)

end Scene

/-- `Session.connect` with the phone's key pair, undisturbed. -/
def FakeLock.connect (lock : FakeLock prim) (phone : KeyPair) : Except Exn (FakeTransport × Linked) := do
  let firmware ← parseSoftwareRevision lock.firmware
  if firmware.lt minFirmwareConnect then throw (.ble (.firmwareTooOld firmware minFirmwareConnect))
  let refs := CommandRefCounter.forFirmware firmware
  let command ← validated (exchangeKeyPubM phone.publicKey)
  let (_, transport, response) ← lock.handle .new (command.withRef refs.next.1)
  let response ← liftBle (checkAnswer .exchangeKeyPubM response)
  let keys ← deriveLinkKeys prim phone.privateKey (← liftBle (parseExchangeKeyPubL response))
  let refs := refs.next.2
  if firmware.lt minFirmwareAdmin then return (transport, ⟨firmware, none, keys, refs⟩)
  let (_, transport, response) ← lock.handle transport (deviceModelGet.withRef refs.next.1)
  let model ← liftBle (parseDeviceModel (← liftBle (checkAnswer .deviceModelGet response)))
  return (transport, ⟨firmware, some model, keys, refs.next.2⟩)

/-- A new session on the lock. -/
def Connected (s : Scene prim) : Prop :=
  ∃ phone, keyPairFromPrivateKey prim phone.privateKey = .ok phone ∧
    s.lock.connect phone = .ok (s.transport, s.session)

/-- An enrollment of a factory-fresh lock, interrupted anywhere after its
first save, and any number of interrupted resumes, each on a new session from
the enrollment last saved. -/
inductive Interrupted : Scene prim → Prop
  | enroll {s s' : Scene prim} {arguments : EnrollArguments} {p : EnrollmentProgram prim (Enrollment prim)}
      (hf : s.lock.Factory) (hc : Connected s) (hn : s.saved = none)
      (hs : Steps Scene.faulty s (enroll arguments) s' p) (hsaved : s'.saved.isSome = true) : Interrupted s'
  | resume {s next s' : Scene prim} {e : Enrollment prim} {now : Option DateTime}
      {p : EnrollmentProgram prim (Enrollment prim)} (h : Interrupted s) (hsaved : s.saved = some e)
      (hlock : next.lock = s.lock) (hkept : next.saved = s.saved) (hc : Connected next)
      (hs : Steps Scene.faulty next (resumeEnrollment e now) s' p) : Interrupted s'

end

end OnestiLock
