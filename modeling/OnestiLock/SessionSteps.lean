import OnestiLock.Commands
import OnestiLock.SessionState
import OnestiLock.Transition

/-! The coroutines of a session, cut at their suspension points
(`Session.connect`, `close`, `send` and `_exchange`), and the turns of the
event loop they run in. -/

namespace OnestiLock

inductive Progress
  | suspended (await : Await)
  | ended (result : Except Exn Response)

/-- What the transport's coroutine did: it returned bytes, or it raised. -/
inductive Reply
  | returned (raw : Bytes)
  | raised (e : Exn)

inductive Label
  | connect (tid : TaskId)
  | send (tid : TaskId) (command : CommandPayload) (skipAppGates : Bool)
  | close (tid : TaskId)
  | resume (tid : TaskId) (reply : Reply)
  | cancel (tid : TaskId)
  | expire (tid : TaskId)
  | notify (data : Bytes) (origin : Option Nat)
  | disconnect
  | tick (ticks : Nat)

def checkAnswer (commandId : CommandId) (r : Response) : Except BleError Response := do
  r.raiseForStatus
  if r.responseId ≠ expectedResponseId commandId then
    throw (.protocol ⟨s!"{commandId.name} was answered by {responseName r.responseId} instead of {responseName (expectedResponseId commandId)}"⟩)
  return r

def liftBle {α : Type} : BleResult α → Except Exn α
  | .ok a => .ok a
  | .error e => .error (.ble e)

@[simp] theorem liftBle_ok {α : Type} (a : α) : liftBle (.ok a) = .ok a := rfl

@[simp] theorem liftBle_error {α : Type} (e : BleError) :
    liftBle (.error e : BleResult α) = .error (.ble e) := rfl

/-- The link keys that `connect` derives from the answer to its key exchange. -/
def linkKeysOf (config : SessionConfig) (prim : Primitives) (r : Response) : Except Exn LinkKeys := do
  deriveLinkKeys prim config.keyPair.privateKey (← liftBle (parseExchangeKeyPubL r))

namespace World

/-! `_exchange`. -/

def leave (w : World) (result : Except Exn Response) : World × Progress :=
  ({ w with session := { w.session with commandLock := w.session.commandLock.release } },
    .ended result)

/-- The `finally` block. -/
def endCall (w : World) (call : Nat) (ending : Ending) (readyAt : Nat) : World :=
  modifyCall { w with session := { w.session with pending := none, readyAt := readyAt } } call
    (fun c => c.finish ending w.now)

section

variable (config : SessionConfig)

def awaitAnswer (w : World) (command : CommandPayload) (call : Nat) : World × Progress :=
  match (w.calls call).future with
  | .waiting => (w, .suspended (.answering call))
  | .answered r =>
    (w.endCall call .answered (w.now + config.commandDelay)).leave
      (liftBle (checkAnswer command.commandId r))
  | .failed e => (w.endCall call .raised w.session.readyAt).leave (.error (.ble e))
  | .cancelled => (w.endCall call .cancelled w.session.readyAt).leave (.error .cancelled)

def writeNext (w : World) (command : CommandPayload) (call : Nat) : List Bytes → World × Progress
  | frame :: rest =>
    ({ w with writes := w.writes ++ [(call, frame)] }, .suspended (.writing call rest))
  | [] => (w.modifyCall call (fun c => { c with written := true })).awaitAnswer config command call

def issue (w : World) (commandId : CommandId) (refs : CommandRefCounter) : World :=
  { w with
    session := { w.session with refs := some refs.next.2 }
    calls := Function.update w.calls w.issued (.issued commandId refs.next.1 refs.isStatic w.now)
    issued := w.issued + 1 }

def setPending (w : World) (pending : Pending) : World :=
  { w with session := { w.session with pending := some pending, dropped := none } }

/-- The reference is taken first, so a command that cannot be framed has used it up. -/
def begin (w : World) (command : CommandPayload) : World × Progress :=
  if w.session.stream.cipher.isNone ∧ command.commandId ≠ .exchangeKeyPubM then
    w.leave (.error (.ble (.sessionState
      s!"{command.commandId.name} cannot be sent before the key exchange has set the link cipher")))
  else match w.session.refs with
  | none => w.leave (.error (.other "AttributeError"))
  | some refs =>
    let issued := w.issue command.commandId refs
    match (command.withRef refs.next.1).toBytes >>= w.session.stream.frame with
    | .error e =>
      (issued.modifyCall w.issued (fun c => c.finish .raised w.now)).leave (.error (.ble (.validation e)))
    | .ok frames =>
      (issued.setPending ⟨command.commandId, refs.next.1, refs.isStatic, w.issued⟩).writeNext
        config command w.issued frames

def afterPause (w : World) (command : CommandPayload) : World × Progress :=
  if w.session.state.canExchange = false then
    w.leave (.error (.ble w.session.state.notConnected))
  else w.begin config command

def afterAcquire (w : World) (command : CommandPayload) : World × Progress :=
  if w.session.state.canExchange = false then
    w.leave (.error (.ble w.session.state.notConnected))
  else if w.session.refs.isNone then w.leave (.error (.other "AssertionError"))
  else if w.now < w.session.readyAt then (w, .suspended (.pausing w.session.readyAt))
  else w.begin config command

def withLock (w : World) (lock : FifoLock TaskId) : World :=
  { w with session := { w.session with commandLock := lock } }

def exchange (w : World) (tid : TaskId) (command : CommandPayload) : World × Progress :=
  match w.session.commandLock.acquire tid with
  | (lock, true) => (w.withLock lock).afterAcquire config command
  | (lock, false) => (w.withLock lock, .suspended .acquiring)

def timedOut (w : World) (command : CommandPayload) (call : Nat) : World × Progress :=
  let readyAt := if (w.calls call).staticRef then w.now + config.lateAnswerGrace else w.session.readyAt
  (w.endCall call .timedOut readyAt).leave (.error (.ble (.timeout
    s!"{command.commandId.name} got no answer within {config.timeoutText} s" w.session.dropped)))

/-- A throw reaches the coroutine where it is suspended. -/
def interruptExchange (w : World) (tid : TaskId) (command : CommandPayload) (interrupt : Interrupt) :
    Await → World × Progress
  | .acquiring =>
    (w.withLock (w.session.commandLock.abandon tid), .ended (.error .cancelled))
  | .pausing _ => w.leave (.error .cancelled)
  | .writing call _ | .answering call =>
    match interrupt with
    | .expired => w.timedOut config command call
    | .cancelled => (w.endCall call .cancelled w.session.readyAt).leave (.error .cancelled)

/-- `_exchange` goes on from where it was suspended, `none` while it has to wait. -/
def resumeExchange (w : World) (tid : TaskId) (command : CommandPayload) (reply : Reply) :
    Await → Option (World × Progress)
  | .acquiring =>
    (w.session.commandLock.take tid).map (fun lock => (w.withLock lock).afterAcquire config command)
  | .pausing wake => if wake ≤ w.now then some (w.afterPause config command) else none
  | .writing call rest =>
    match reply with
    | .returned _ => some (w.writeNext config command call rest)
    | .raised e => some ((w.endCall call .raised w.session.readyAt).leave (.error e))
  | .answering call =>
    if (w.calls call).future.isWaiting then none else some (w.awaitAnswer config command call)

/-! `connect`, `send` and `close` around it. -/

def finish (w : World) (tid : TaskId) (result : Except Exn (Option Response)) : World :=
  w.setTask tid (.finished result)

/-- `close` up to the transport. -/
def closeSession (w : World) : World :=
  failPending { w with session := { w.session with state := .closed } }
    "The session was closed before the lock answered"

/-- The `except` clause of `connect`. -/
def failConnect (w : World) (tid : TaskId) (e : Exn) : World :=
  w.closeSession.setTask tid (.failingConnect e)

def finishConnect (w : World) (tid : TaskId) : World :=
  World.finish { w with session := { w.session with state := .connected } } tid (.ok none)

def sendProgress (tid : TaskId) (command : CommandPayload) : World × Progress → World
  | (w, .suspended await) => w.setTask tid (.exchanging .send command await)
  | (w, .ended result) => w.finish tid (result.map some)

def modelProgress (tid : TaskId) : World × Progress → World
  | (w, .suspended await) => w.setTask tid (.exchanging .connectModel deviceModelGet await)
  | (w, .ended result) =>
    match (result >>= fun r => liftBle (parseDeviceModel r) : Except Exn Nat) with
    | .error e => w.failConnect tid e
    | .ok model => finishConnect { w with session := { w.session with model := some model } } tid

variable (prim : Primitives)

def setLinkKeys (w : World) (keys : LinkKeys) : World :=
  { w with
    session := { w.session with
      linkKeys := some keys
      stream := { w.session.stream with cipher := some (keys.cipher.payloadCipher prim) } } }

def keyProgress (tid : TaskId) (firmware : FirmwareVersion) (command : CommandPayload) :
    World × Progress → World
  | (w, .suspended await) => w.setTask tid (.exchanging (.connectKey firmware) command await)
  | (w, .ended result) =>
    match (result >>= linkKeysOf config prim : Except Exn LinkKeys) with
    | .error e => w.failConnect tid e
    | .ok keys =>
      if firmware.lt minFirmwareAdmin then (w.setLinkKeys prim keys).finishConnect tid
      else modelProgress tid ((w.setLinkKeys prim keys).exchange config tid deviceModelGet)

def progress (tid : TaskId) (caller : Caller) (command : CommandPayload) (p : World × Progress) : World :=
  match caller with
  | .send => sendProgress tid command p
  | .connectKey firmware => keyProgress config prim tid firmware command p
  | .connectModel => modelProgress tid p

def startConnect (w : World) (tid : TaskId) : World :=
  if w.session.state = .new then
    setTask { w with session := { w.session with state := .connecting } } tid .readingRevision
  else w.finish tid (.error (.ble (.sessionState
    "A Session connects once; build a new one to reconnect")))

def gotRevision (w : World) (tid : TaskId) (raw : Bytes) : World :=
  match parseSoftwareRevision raw with
  | .error e => w.failConnect tid e
  | .ok firmware =>
    if firmware.lt minFirmwareConnect then
      w.failConnect tid (.ble (.firmwareTooOld firmware minFirmwareConnect))
    else setTask { w with session := { w.session with
      firmware := some firmware, refs := some (.forFirmware firmware) } } tid (.subscribing firmware)

def subscribed (w : World) (tid : TaskId) (firmware : FirmwareVersion) : World :=
  match exchangeKeyPubM config.keyPair.publicKey with
  | .error e => w.failConnect tid (.ble (.validation e))
  | .ok command => keyProgress config prim tid firmware command (w.exchange config tid command)

def startSend (w : World) (tid : TaskId) (command : CommandPayload) (skipAppGates : Bool) : World :=
  if w.session.state = .connected then
    match w.session.firmware with
    | none => w.finish tid (.error (.ble (.sessionState "The firmware is read by connect()")))
    | some firmware =>
      let feature := availability command firmware w.session.model
      if feature.isAvailable = false ∧ skipAppGates = false then
        w.finish tid (.error (.ble (.featureUnavailable command.commandId feature firmware w.session.model)))
      else sendProgress tid command (w.exchange config tid command)
  else w.finish tid (.error (.ble w.session.state.notConnected))

def startClose (w : World) (tid : TaskId) : World := w.closeSession.setTask tid .closing

/-! One turn of the event loop. -/

def consumeInterrupt (w : World) (tid : TaskId) : World :=
  { w with interrupts := Function.update w.interrupts tid none }

def resumeTask (w : World) (tid : TaskId) (interrupt : Option Interrupt) (reply : Reply) :
    Coroutine → Option World
  | .readingRevision =>
    match reply with
    | .returned raw => some (w.gotRevision tid raw)
    | .raised e => some (w.failConnect tid e)
  | .subscribing firmware =>
    match reply with
    | .returned _ => some (w.subscribed config prim tid firmware)
    | .raised e => some (w.failConnect tid e)
  | .exchanging caller command await =>
    match interrupt with
    | some i => some (progress config prim tid caller command (w.interruptExchange config tid command i await))
    | none => (w.resumeExchange config tid command reply await).map (progress config prim tid caller command)
  | .failingConnect e =>
    match reply with
    | .returned _ => some (w.finish tid (.error e))
    | .raised e' => some (w.finish tid (.error e'))
  | .closing =>
    match reply with
    | .returned _ => some (w.finish tid (.ok none))
    | .raised e => some (w.finish tid (.error e))
  | .finished _ => none

/-- A transport lets a cancellation through. -/
def resume (w : World) (tid : TaskId) (reply : Reply) : Option World :=
  (w.tasks tid).bind (fun task =>
    (w.consumeInterrupt tid).resumeTask config prim tid (w.interrupts tid)
      (if (w.interrupts tid).isSome then .raised .cancelled else reply) task)

/-- `Task.cancel`: what the coroutine waits for is cancelled at once, the
throw reaches it when it runs. -/
def interrupt (w : World) (tid : TaskId) (i : Interrupt) : World :=
  let w := { w with interrupts := Function.update w.interrupts tid (some i) }
  match w.tasks tid with
  | some (.exchanging _ _ .acquiring) => w.withLock (w.session.commandLock.cancelWait tid)
  | some (.exchanging _ _ (.answering call)) => w.settle call .cancelled
  | _ => w

/-- The call a coroutine has in flight, under its response timeout. -/
def inFlight (w : World) (tid : TaskId) : Option Nat :=
  match w.tasks tid with
  | some (.exchanging _ _ (.writing call _)) | some (.exchanging _ _ (.answering call)) => some call
  | _ => none

def live (w : World) (tid : TaskId) : Bool :=
  match w.tasks tid with
  | none | some (.finished _) => false
  | _ => true

def step (w : World) : Label → Option World
  | .connect tid => if (w.tasks tid).isNone then some (w.startConnect tid) else none
  | .send tid command skipAppGates =>
    if (w.tasks tid).isNone then some (w.startSend config tid command skipAppGates) else none
  | .close tid => if (w.tasks tid).isNone then some (w.startClose tid) else none
  | .resume tid reply => w.resume config prim tid reply
  | .cancel tid => if w.live tid then some (w.interrupt tid .cancelled) else none
  | .expire tid =>
    (w.inFlight tid).bind (fun call =>
      if (w.interrupts tid).isNone ∧ (w.calls call).began + config.responseTimeout ≤ w.now then
        some (w.interrupt tid .expired)
      else none)
  | .notify data origin => some (w.onNotification data origin)
  | .disconnect => some w.onDisconnect
  | .tick ticks => some { w with now := w.now + ticks }

end

end World

end OnestiLock
