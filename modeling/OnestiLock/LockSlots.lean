import Mathlib.Data.Finset.Insert
import Mathlib.Data.Finset.Erase
import OnestiLock.AnswerForms
import OnestiLock.CommandMeaning
import OnestiLock.FakeLock

/-! The credentials in the slots of the lock that the tests talk to
(`tests/ble/fake_lock.py`), a request to it over the wire, and the book of
credentials that a request is about. -/

namespace OnestiLock

def statusNotFoundError : Nat := 6

/-- `UserAddedStatusId` of a scanned fingerprint and of a scanned tag. -/
def addedRfidCode : Nat := 2
def addedFingerprint : Nat := 3

structure LockSlots where
  pins : Nat → Option String
  fingerprints : Finset Nat
  rfids : Finset Nat

def LockSlots.empty : LockSlots := ⟨fun _ => none, ∅, ∅⟩

/-- `bytes.decode("ascii")`. -/
def decodedAscii (raw : Bytes) : Except Exn String :=
  if raw.all (fun b => decide (b.toNat < 128)) then .ok (String.ofList (decodeText raw))
  else .error (.other "UnicodeDecodeError")

namespace LockSlots

variable (slots : LockSlots) (received : Command)

def onPinCodeSet : Except Exn (LockSlots × List Response) := do
  let (slot, reader) ← parsed (readUInt16 received.payload)
  let (length, reader) ← parsed (readUInt8 reader)
  let (raw, _) ← parsed (readBytes length reader)
  let pin ← decodedAscii raw
  return ({ slots with pins := Function.update slots.pins slot (some pin) }, [answer received statusSuccess []])

/-- An empty PIN counts as none. -/
def onPinCodeClear : Except Exn (LockSlots × List Response) := do
  let (slot, _) ← parsed (readUInt16 received.payload)
  let found := (slots.pins slot).any (fun pin => pin != "")
  return ({ slots with pins := Function.update slots.pins slot none },
    [answer received (if found then statusSuccess else statusNotFoundError) []])

/-- `_scan`, once the slot is in the table: the event, then the answer. -/
def scanned (slot added : Nat) : Except Exn (List Response) := do
  let buffer ← validated (writeUInt16 [] slot)
  let eventPayload ← validated (writeUInt8 buffer added)
  let answerPayload ← validated (writeUInt8 buffer 0)
  return [⟨responseUserAdded, eventCommandRef, 0, eventPayload⟩, answer received statusSuccess answerPayload]

def onFingerprintScan : Except Exn (LockSlots × List Response) := do
  let (slot, _) ← parsed (readUInt16 received.payload)
  return ({ slots with fingerprints := insert slot slots.fingerprints }, ← scanned received slot addedFingerprint)

def onScanRfidCode : Except Exn (LockSlots × List Response) := do
  let (slot, _) ← parsed (readUInt16 received.payload)
  return ({ slots with rfids := insert slot slots.rfids }, ← scanned received slot addedRfidCode)

/-- `_clear`, of either table. -/
def clearStatus (table : Finset Nat) (slot : Nat) : Nat :=
  if slot ∈ table then statusSuccess else statusNotFoundError

def onFingerprintClear : Except Exn (LockSlots × List Response) := do
  let (slot, _) ← parsed (readUInt16 received.payload)
  return ({ slots with fingerprints := slots.fingerprints.erase slot },
    [answer received (clearStatus slots.fingerprints slot) []])

def onRfidCodeClear : Except Exn (LockSlots × List Response) := do
  let (slot, _) ← parsed (readUInt16 received.payload)
  return ({ slots with rfids := slots.rfids.erase slot }, [answer received (clearStatus slots.rfids slot) []])

/-- `_handle` of a command about a slot; the others are in the lock's own model. -/
def handle (authenticated : Bool) : Except Exn (LockSlots × List Response) :=
  if authenticated = false then .ok (slots, [answer received statusSecurityError []])
  else match received.commandId with
  | .pinCodeSet => slots.onPinCodeSet received
  | .pinCodeClear => slots.onPinCodeClear received
  | .fingerprintScan => slots.onFingerprintScan received
  | .scanRfidCode => slots.onScanRfidCode received
  | .fingerprintClear => slots.onFingerprintClear received
  | .rfidCodeClear => slots.onRfidCodeClear received
  | _ => .error (.other "NotModelled")

end LockSlots

/-! A request over the wire. -/

/-- What came back: the events before the answer, and the answer. -/
structure Heard where
  events : List LockEvent
  answer : Except BleError ParsedAnswer

/-- A response crosses the wire with whatever the cipher padded it with. -/
def crossed (padding : Bytes) (r : Response) : Except Exn Response := do
  let bytes ← validated r.toBytes
  parsed (Response.fromBytes (bytes ++ padding))

/-- The responses as the session hands them on: events to the listeners, the
last one to the parser of the answer. -/
def hearing (command : CommandId) : List Response → Except Exn Heard
  | [] => .error (.ble (.timeout "" none))
  | [r] => .ok ⟨[], parseAnswer command r⟩
  | r :: more => do
    let event ← parsed (parseEvent r)
    let heard ← hearing command more
    return ⟨event.toList ++ heard.events, heard.answer⟩

/-- A builder's call, sent to the lock and answered. -/
def slotRequest (authenticated : Bool) (padding : Bytes) (slots : LockSlots) (call : BuilderCall) (ref : Nat) :
    Except Exn (LockSlots × Heard) := do
  let payload ← validated call.build
  let bytes ← validated (payload.withRef ref).toBytes
  let received ← parsed (Command.fromBytes (bytes ++ padding))
  let (slots, responses) ← slots.handle received authenticated
  let heard ← hearing payload.commandId (← responses.mapM (crossed padding))
  return (slots, heard)

def slotRequests (authenticated : Bool) (padding : Bytes) (slots : LockSlots) :
    List (BuilderCall × Nat) → Except Exn (LockSlots × List Heard)
  | [] => .ok (slots, [])
  | (call, ref) :: more => do
    let (slots, heard) ← slotRequest authenticated padding slots call ref
    let (slots, later) ← slotRequests authenticated padding slots more
    return (slots, heard :: later)

/-! The book of credentials. -/

inductive CredentialKind
  | pin | fingerprint | rfid
  deriving DecidableEq, Repr

/-- What each slot of each kind holds; a scanned credential has no text. -/
abbrev SlotBook := CredentialKind → Nat → Option String

inductive SlotRequest
  | setPin (slot : Nat) (pin : String)
  | scan (kind : CredentialKind) (slot : Nat)
  | clear (kind : CredentialKind) (slot : Nat)
  deriving DecidableEq, Repr

inductive SlotOutcome
  | done
  | added (kind : CredentialKind) (slot : Nat)
  | notFound
  | refused
  deriving DecidableEq, Repr

namespace SlotBook

def write (book : SlotBook) (kind : CredentialKind) (slot : Nat) (content : Option String) : SlotBook :=
  Function.update book kind (Function.update (book kind) slot content)

def apply (authenticated : Bool) (book : SlotBook) (request : SlotRequest) : SlotBook × SlotOutcome :=
  if authenticated = false then (book, .refused)
  else match request with
  | .setPin slot pin => (book.write .pin slot (some pin), .done)
  | .scan kind slot => (book.write kind slot (some ""), .added kind slot)
  | .clear kind slot => (book.write kind slot none, if (book kind slot).isSome then .done else .notFound)

def applyAll (authenticated : Bool) (book : SlotBook) : List SlotRequest → SlotBook × List SlotOutcome
  | [] => (book, [])
  | request :: more =>
    let first := book.apply authenticated request
    let rest := applyAll authenticated first.1 more
    (rest.1, first.2 :: rest.2)

end SlotBook

/-- What a call asks of the book, if it is about a slot. -/
def BuilderCall.slotRequest? : BuilderCall → Option SlotRequest
  | .pinCodeSet slot pin _ => some (.setPin slot.toNat pin)
  | .masterPinCodeSet pin => some (.setPin masterPinSlot.toNat pin)
  | .pinCodeClear slot => some (.clear .pin slot.toNat)
  | .fingerprintScan slot => some (.scan .fingerprint slot.toNat)
  | .fingerprintClear slot => some (.clear .fingerprint slot.toNat)
  | .scanRfidCode slot => some (.scan .rfid slot.toNat)
  | .rfidCodeClear slot => some (.clear .rfid slot.toNat)
  | _ => none

/-- How an outcome reaches the caller of a command. -/
def SlotOutcome.heard (command : CommandId) : SlotOutcome → Heard
  | done => ⟨[], .ok .done⟩
  | added kind slot => ⟨[.userAdded slot (if kind = .rfid then addedRfidCode else addedFingerprint)],
      .ok (.scanResult ⟨slot, .known 0⟩)⟩
  | notFound => ⟨[], .error (.operation statusNotFoundError command.value)⟩
  | refused => ⟨[], .error (.operation statusSecurityError command.value)⟩

/-- The book that the lock's tables keep. -/
def LockSlots.book (slots : LockSlots) : SlotBook
  | .pin => slots.pins
  | .fingerprint => fun slot => if slot ∈ slots.fingerprints then some "" else none
  | .rfid => fun slot => if slot ∈ slots.rfids then some "" else none

end OnestiLock
