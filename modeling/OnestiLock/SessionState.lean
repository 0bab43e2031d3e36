import Mathlib.Logic.Function.Basic
import OnestiLock.Crypto
import OnestiLock.FifoLock
import OnestiLock.Responses
import OnestiLock.Text

/-! The data of a session and of the coroutines that run on it
(`ble/client/session.py`), and what one notification does to them. -/

namespace OnestiLock

/-! `parse_software_revision`. -/

/-- Python's `repr` of an ASCII string. -/
def reprAscii (raw : Bytes) : String :=
  let quote : UInt8 := if 39 ∈ raw ∧ 34 ∉ raw then 34 else 39
  let char (b : UInt8) : List Char := [Char.ofNat b.toNat]
  let hex (b : UInt8) : List Char := (hexByte b.toNat).toList.map Char.toLower
  let escape (b : UInt8) : List Char :=
    if b = 92 ∨ b = quote then char 92 ++ char b
    else if b = 9 then ['\\', 't']
    else if b = 10 then ['\\', 'n']
    else if b = 13 then ['\\', 'r']
    else if b < 32 ∨ b = 127 then ['\\', 'x'] ++ hex b
    else char b
  String.ofList (char quote ++ raw.flatMap escape ++ char quote)

def rstrip (chars raw : Bytes) : Bytes := (raw.reverse.dropWhile (· ∈ chars)).reverse

def isDecimal (part : Bytes) : Bool := !part.isEmpty && part.all (fun b => 48 ≤ b && b ≤ 57)

def decimalValue (part : Bytes) : Nat := part.foldl (fun n b => 10 * n + (b.toNat - 48)) 0

/-- `int` of decimal digits, which converts only so many. -/
def intOfDecimal (part : Bytes) : Except Exn Nat :=
  if part.length ≤ Python.maxStrDigits then .ok (decimalValue part) else .error (.other "ValueError")

def parseSoftwareRevision (raw : Bytes) : Except Exn FirmwareVersion :=
  if raw.all (· < 128) = false then .error (.ble (.protocol ⟨"Software revision is not ASCII"⟩))
  else match (rstrip [0, 32, 9, 13, 10] raw).splitOn 46 with
  | [major, minor, bugfix] =>
    if isDecimal major && isDecimal minor && isDecimal bugfix then do
      .ok ⟨← intOfDecimal major, ← intOfDecimal minor, ← intOfDecimal bugfix⟩
    else .error (.ble (.protocol ⟨s!"Software revision {reprAscii raw} is not major.minor.bugfix"⟩))
  | _ => .error (.ble (.protocol ⟨s!"Software revision {reprAscii raw} is not major.minor.bugfix"⟩))

/-! The session object. -/

abbrev TaskId := Nat

inductive SessionState
  | new | connecting | connected | closed
  deriving DecidableEq, Repr

namespace SessionState

def canExchange : SessionState → Bool
  | connecting | connected => true
  | new | closed => false

/-- `_not_connected`. -/
def notConnected : SessionState → BleError
  | new => .sessionState "Call connect() before sending commands"
  | connecting => .sessionState "The session is still connecting"
  | connected | closed => .disconnected "The session is closed"

end SessionState

/-- `call` is the command whose future it holds. -/
structure Pending where
  commandId : CommandId
  commandRef : Nat
  staticRef : Bool
  call : Nat
  deriving DecidableEq, Repr

/-- What the constructor is given. Times are counted in clock ticks, and
`timeoutText` is the response timeout as its error message shows it. -/
structure SessionConfig where
  mtu : Nat
  responseTimeout : Nat
  commandDelay : Nat
  lateAnswerGrace : Nat
  timeoutText : String
  keyPair : KeyPair
  mtu_ok : mtuMin ≤ mtu

/-- A link that takes a whole key exchange in one packet. -/
def SessionConfig.scalarOne : SessionConfig :=
  ⟨100, 20000, 320, 20000, "20", OnestiLock.keyPair .scalarOne 1, by decide⟩

structure Session where
  state : SessionState
  stream : PacketStream
  refs : Option CommandRefCounter
  firmware : Option FirmwareVersion
  model : Option Nat
  linkKeys : Option LinkKeys
  pending : Option Pending
  dropped : Option BleProtocolError
  events : List LockEvent
  commandLock : FifoLock TaskId
  readyAt : Nat

namespace Session

def new (config : SessionConfig) : Session where
  state := .new
  stream := ⟨config.mtu, none, none, 0, config.mtu_ok⟩
  refs := none
  firmware := none
  model := none
  linkKeys := none
  pending := none
  dropped := none
  events := []
  commandLock := .free
  readyAt := 0

def connected (s : Session) : Bool := s.state == .connected

end Session

/-! The commands the session has issued. -/

inductive Future
  | waiting
  | answered (r : Response)
  | failed (e : BleError)
  | cancelled
  deriving DecidableEq, Repr

def Future.isWaiting : Future → Bool
  | waiting => true
  | _ => false

/-- How an exchange that took a reference ended. -/
inductive Ending
  | answered | timedOut | cancelled | raised
  deriving DecidableEq, Repr

/-- The notification that completed a future: the command the lock answered
with it, if it was an answer, and when it arrived. -/
structure Completion where
  origin : Option Nat
  time : Nat
  deriving DecidableEq, Repr

/-- One command that was given a reference, with its history. -/
structure Call where
  commandId : CommandId
  commandRef : Nat
  staticRef : Bool
  future : Future
  began : Nat
  written : Bool
  completion : Option Completion
  ended : Option (Ending × Nat)
  deriving DecidableEq, Repr

def Call.issued (commandId : CommandId) (commandRef : Nat) (staticRef : Bool) (began : Nat) : Call :=
  ⟨commandId, commandRef, staticRef, .waiting, began, false, none, none⟩

/-- `_settle` and the end of `_exchange`. -/
def Call.finish (c : Call) (ending : Ending) (time : Nat) : Call :=
  { c with
    future := if c.future.isWaiting then .cancelled else c.future
    ended := some (ending, time) }

/-! The coroutines. -/

/-- Where `_exchange` is suspended. -/
inductive Await
  | acquiring
  | pausing (wake : Nat)
  | writing (call : Nat) (rest : List Bytes)
  | answering (call : Nat)
  deriving DecidableEq, Repr

/-- Who called `_exchange`. -/
inductive Caller
  | send
  | connectKey (firmware : FirmwareVersion)
  | connectModel
  deriving DecidableEq, Repr

inductive Coroutine
  | readingRevision
  | subscribing (firmware : FirmwareVersion)
  | exchanging (caller : Caller) (command : CommandPayload) (await : Await)
  | failingConnect (e : Exn)
  | closing
  | finished (result : Except Exn (Option Response))

/-- A throw waiting for a coroutine to run: its response timeout expired, or
it was cancelled. A cancellation outlives an expired timeout. -/
inductive Interrupt
  | expired | cancelled
  deriving DecidableEq, Repr

/-- The session, its coroutines and the clock. -/
structure World where
  session : Session
  tasks : TaskId → Option Coroutine
  interrupts : TaskId → Option Interrupt
  calls : Nat → Call
  issued : Nat
  writes : List (Nat × Bytes)
  now : Nat

namespace World

def new (config : SessionConfig) : World where
  session := .new config
  tasks := fun _ => none
  interrupts := fun _ => none
  calls := fun _ => .issued .exchangeKeyPubM 0 false 0
  issued := 0
  writes := []
  now := 0

def setTask (w : World) (tid : TaskId) (task : Coroutine) : World :=
  { w with tasks := Function.update w.tasks tid (some task) }

def modifyCall (w : World) (call : Nat) (f : Call → Call) : World :=
  { w with calls := Function.update w.calls call (f (w.calls call)) }

/-- A future that is done stays as it is. -/
def settle (w : World) (call : Nat) (future : Future) : World :=
  w.modifyCall call (fun c => { c with future := if c.future.isWaiting then future else c.future })

/-! Incoming. -/

/-- `_drop`, and the late answer that is remembered the same way. -/
def drop (w : World) (e : BleProtocolError) : World :=
  { w with session := { w.session with dropped := some e } }

def dispatchEvent (w : World) (r : Response) : World :=
  match parseEvent r with
  | .error e => w.drop e
  | .ok none => w
  | .ok (some event) => { w with session := { w.session with events := w.session.events ++ [event] } }

def lateAnswer (r : Response) (p : Pending) : BleProtocolError :=
  ⟨s!"{responseName r.responseId} arrived under the static CommandRef while {p.commandId.name} waited, and was taken as a late answer to an earlier command"⟩

def complete (w : World) (call : Nat) (origin : Option Nat) (r : Response) : World :=
  w.modifyCall call (fun c => { c with future := .answered r, completion := some ⟨origin, w.now⟩ })

/-- A parsed response: an event, an answer nobody waits for, a late one under
the static reference, or the answer. -/
def takeResponse (w : World) (origin : Option Nat) (r : Response) : World :=
  if r.isEvent then w.dispatchEvent r
  else match w.session.pending with
  | none => w
  | some p =>
    if (w.calls p.call).future.isWaiting = false ∨ r.commandRef ≠ p.commandRef then w
    else if p.staticRef = true ∧ r.responseId ≠ expectedResponseId p.commandId then
      w.drop (lateAnswer r p)
    else w.complete p.call origin r

/-- `_on_notification`. `origin` is the command the lock answers with it. -/
def onNotification (w : World) (data : Bytes) (origin : Option Nat) : World :=
  let received := w.session.stream.receive data
  let w := { w with session := { w.session with stream := received.2 } }
  match received.1 with
  | .error e => w.drop e
  | .ok (.payload p) =>
    match Response.fromBytes p.data with
    | .error e => w.drop e
    | .ok r => w.takeResponse origin r
  | .ok _ => w

def failPending (w : World) (message : String) : World :=
  match w.session.pending with
  | none => w
  | some p => w.settle p.call (.failed (.disconnected message))

/-- `_on_disconnect`. -/
def onDisconnect (w : World) : World :=
  if w.session.state = .closed then w
  else failPending
    { w with session := { w.session with state := .closed, stream := w.session.stream.reset } }
    "The lock disconnected before it answered"

end World

end OnestiLock
