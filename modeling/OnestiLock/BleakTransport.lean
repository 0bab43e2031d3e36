import Mathlib.Logic.Function.Basic
import OnestiLock.Errors
import OnestiLock.Transition

/-! The transport over bleak (`ble/client/bleak_transport.py`, with
`write_with_response` of `transport.py`): any number of coroutines call it, and
the client's notifications and disconnect come in between any two of their steps. -/

namespace OnestiLock

namespace Bleak

/-- The errors of the library that are raised here; the text of the last one
shows the properties sorted. -/
inductive TransportError
  | timeout (message : String)
  | disconnected (message : String)
  | ble (message : String)
  | cannotBeWritten (properties : List String)
  deriving DecidableEq, Repr

/-- What leaves a call: an error of the library, or one that is not caught. -/
inductive Failure
  | error (e : TransportError)
  | passed (e : Exn)
  deriving DecidableEq, Repr

/-- The end of a call of the client. A description is what `_describe` makes of
one of the errors in `_BLEAK_ERRORS`. -/
inductive GattEnd
  | returned (value : Bytes)
  | timeoutError
  | bleakError (description : String)
  | other (e : Exn)
  deriving DecidableEq, Repr

/-- `client.services.get_characteristic`, by the properties of what it found. -/
abbrev Services := Except String (Option (List String))

def writeWithResponse (properties : List String) : Except TransportError Bool :=
  if "write-without-response" ∈ properties then .ok false
  else if "write" ∈ properties then .ok true
  else .error (.cannotBeWritten properties)

structure BleakTransport where
  characteristic : Option (List String)
  writeWithResponse : Bool
  onNotification : Option Nat
  onDisconnect : Option Nat
  subscribed : Bool
  linkLost : Bool
  closed : Bool
  deriving DecidableEq, Repr

namespace BleakTransport

def new : BleakTransport := ⟨none, true, none, none, false, false, false⟩

/-- `_check_open`. -/
def checkOpen (t : BleakTransport) : Except TransportError Unit :=
  if t.closed then .error (.disconnected "The transport is closed")
  else if t.linkLost then .error (.disconnected "The lock disconnected")
  else .ok ()

/-- `_communication_characteristic`, with the transport as it leaves it. -/
def communicationCharacteristic (t : BleakTransport) (services : Services) :
    Except TransportError BleakTransport :=
  match t.characteristic with
  | some _ => .ok t
  | none =>
    match services with
    | .error description => .error (.ble s!"The lock's GATT services are not known: {description}")
    | .ok none => .error (.ble "The lock has no communication characteristic; is it a Nimly/Onesti lock?")
    | .ok (some properties) => do
      let response ← Bleak.writeWithResponse properties
      return { t with writeWithResponse := response, characteristic := some properties }

/-- `_failed`. -/
def failed (t : BleakTransport) (connected : Bool) (action description : String) : TransportError :=
  if t.linkLost || !connected then .disconnected s!"{action} failed, the lock disconnected: {description}"
  else .ble s!"{action} failed: {description}"

end BleakTransport

/-- What a coroutine waits for. -/
inductive Await
  | idle | readingRevision | subscribing | writing | stoppingNotify | disconnecting
  deriving DecidableEq, Repr

/-- What is seen from outside: the calls of the client, the callbacks, how calls
end, and where a close or a drop of the link takes effect. -/
inductive Effect
  | refused (e : TransportError)
  | readGattChar (task : Nat)
  | startNotify (task : Nat)
  | writeGattChar (task : Nat) (data : Bytes) (response : Bool)
  | stopNotify (task : Nat)
  | disconnect (task : Nat)
  | arrived (data : Bytes)
  | notified (callback : Nat) (data : Bytes)
  | disconnected (callback : Nat)
  | dropped
  | closing (task : Nat)
  | returned (task : Nat) (value : Bytes)
  | raised (task : Nat) (failure : Failure)
  deriving DecidableEq, Repr

/-- `connected` is `client.is_connected`; there is no transport until the client
has connected. -/
structure World where
  connected : Bool
  transport : Option BleakTransport
  calls : Nat → Await
  trace : List Effect

namespace World

def emit (w : World) (effects : List Effect) : World := { w with trace := w.trace ++ effects }

def await (w : World) (task : Nat) (await : Await) : World :=
  { w with calls := Function.update w.calls task await }

def raise (w : World) (task : Nat) (failure : Failure) : World :=
  (w.await task .idle).emit [.raised task failure]

def finish (w : World) (task : Nat) (value : Bytes) : World :=
  (w.await task .idle).emit [.returned task value]

def setTransport (w : World) (t : BleakTransport) : World := { w with transport := some t }

/-- The constructor. -/
def build (w : World) : World :=
  if w.connected then w.setTransport .new
  else w.emit [.refused (.disconnected "The bleak client is not connected")]

def readSoftwareRevision (w : World) (t : BleakTransport) (task : Nat) : World :=
  match t.checkOpen with
  | .error e => w.raise task (.error e)
  | .ok () => (w.await task .readingRevision).emit [.readGattChar task]

def startNotify (w : World) (t : BleakTransport) (task callbacks : Nat) (services : Services) : World :=
  match t.checkOpen >>= fun _ => t.communicationCharacteristic services with
  | .error e => w.raise task (.error e)
  | .ok t =>
    ((w.setTransport { t with onNotification := some callbacks, onDisconnect := some callbacks }).await
      task .subscribing).emit [.startNotify task]

def write (w : World) (t : BleakTransport) (task : Nat) (data : Bytes) (services : Services) : World :=
  match t.checkOpen >>= fun _ => t.communicationCharacteristic services with
  | .error e => w.raise task (.error e)
  | .ok t =>
    ((w.setTransport t).await task .writing).emit [.writeGattChar task data t.writeWithResponse]

def close (w : World) (t : BleakTransport) (task : Nat) : World :=
  if t.closed then w.finish task []
  else
    let w := (w.setTransport { t with closed := true }).emit [.closing task]
    if !w.connected then w.finish task []
    else if t.subscribed && t.characteristic.isSome then
      (w.await task .stoppingNotify).emit [.stopNotify task]
    else (w.await task .disconnecting).emit [.disconnect task]

/-- A call of the client that fails with an error that is caught. -/
def fail (w : World) (t : BleakTransport) (task : Nat) (timeout action : String) : GattEnd → World
  | .returned value => w.finish task value
  | .timeoutError => w.raise task (.error (.timeout timeout))
  | .bleakError description => w.raise task (.error (t.failed w.connected action description))
  | .other e => w.raise task (.passed e)

/-- The step of a coroutine when the client's call has ended. -/
def resume (w : World) (t : BleakTransport) (task : Nat) (ended : GattEnd) : Option World :=
  match w.calls task with
  | .idle => none
  | .readingRevision =>
    some (w.fail t task "Reading the software revision timed out" "Reading the software revision" ended)
  | .subscribing =>
    match ended with
    | .returned _ => some ((w.setTransport { t with subscribed := true }).finish task [])
    | ended => some (w.fail t task "Subscribing to the lock timed out" "Subscribing to the lock" ended)
  | .writing =>
    match ended with
    | .returned _ => some (w.finish task [])
    | ended => some (w.fail t task "Writing to the lock timed out" "Writing to the lock" ended)
  | .stoppingNotify =>
    match ended with
    | .other e => some (w.raise task (.passed e))
    | _ => some ((w.await task .disconnecting).emit [.disconnect task])
  | .disconnecting =>
    match ended with
    | .other e => some (w.raise task (.passed e))
    | _ => some (w.finish task [])

/-- `_notified`. -/
def receive (w : World) (t : BleakTransport) (data : Bytes) : World :=
  let w := w.emit [.arrived data]
  match t.onNotification with
  | some callback => if t.closed then w else w.emit [.notified callback data]
  | none => w

/-- `client_disconnected`. -/
def clientDisconnected (w : World) (t : BleakTransport) : World :=
  if t.closed || t.linkLost then w
  else
    let w := (w.setTransport { t with linkLost := true }).emit [.dropped]
    match t.onDisconnect with
    | some callback => w.emit [.disconnected callback]
    | none => w

end World

inductive Label
  | build
  | readSoftwareRevision (task : Nat)
  | startNotify (task callbacks : Nat) (services : Services)
  | write (task : Nat) (data : Bytes) (services : Services)
  | close (task : Nat)
  | ended (task : Nat) (ended : GattEnd)
  | received (data : Bytes)
  | linkDropped
  | clientDisconnected

/-- A call begins in a coroutine that runs none. -/
def World.begin (w : World) (task : Nat) (call : BleakTransport → World) : Option World :=
  match w.transport with
  | some t => if w.calls task = .idle then some (call t) else none
  | none => none

def step (w : World) : Label → Option World
  | .build => if w.transport.isNone then some w.build else none
  | .readSoftwareRevision task => w.begin task (fun t => w.readSoftwareRevision t task)
  | .startNotify task callbacks services => w.begin task (fun t => w.startNotify t task callbacks services)
  | .write task data services => w.begin task (fun t => w.write t task data services)
  | .close task => w.begin task (fun t => w.close t task)
  | .ended task ended => w.transport.bind (fun t => w.resume t task ended)
  -- bleak hands over notifications once it has been asked for them.
  | .received data =>
    w.transport.bind (fun t => if t.onNotification.isSome then some (w.receive t data) else none)
  | .linkDropped => some { w with connected := false }
  -- Until the transport exists the callback has nobody to tell.
  | .clientDisconnected =>
    let w := { w with connected := false }
    some (w.transport.elim w w.clientDisconnected)

abbrev exec := Transition.exec step

def World.start : World := ⟨true, none, fun _ => .idle, []⟩

end Bleak

end OnestiLock
