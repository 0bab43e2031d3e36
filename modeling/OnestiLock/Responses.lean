import OnestiLock.Command

/-! Typed readings of response payloads (`ble/protocol/responses.py`), those
the session and the enrollment use. -/

namespace OnestiLock

/-- `_reader` of a response parser that checks the status. -/
def responseReader (r : Response) (expected : Nat) : Except BleError Bytes := do
  if r.responseId ≠ expected then
    throw (.protocol ⟨s!"Expected a {responseName expected} response, got {responseName r.responseId}"⟩)
  r.raiseForStatus
  return r.payload

def liftProtocol {α : Type} : Except BleProtocolError α → Except BleError α
  | .ok a => .ok a
  | .error e => .error (.protocol e)

/-- A parser that reads `count` bytes from the front of the payload. -/
def parseBytes (command : CommandId) (count : Nat) (r : Response) : Except BleError Bytes := do
  let reader ← responseReader r (expectedResponseId command)
  let (raw, _) ← liftProtocol (readBytes count reader)
  return raw

def parseExchangeKeyPubL := parseBytes .exchangeKeyPubM publicKeyLength
def parseUserAuthBegin := parseBytes .userAuthBegin challengeLength
def parseUserAuthUpdate := parseBytes .userAuthUpdate publicKeyLength
def parseServerKeyUpdate := parseBytes .serverKeyUpdate publicKeyLength

/-- An unknown model byte reads as `UNKNOWN`. -/
def parseDeviceModel (r : Response) : Except BleError Nat := do
  let reader ← responseReader r (expectedResponseId .deviceModelGet)
  let (raw, _) ← liftProtocol (readUInt8 reader)
  return if raw ∈ lockModelIds then raw else lockModelUnknown

def parseDeviceNameGet (r : Response) : Except BleError String := do
  let reader ← responseReader r (expectedResponseId .deviceNameGet)
  let (name, _) ← liftProtocol (readString deviceNameMaxLength reader)
  return name

/-- `CurrentTime.minutes`. -/
def parseCurrentTime (r : Response) : Except BleError Nat := do
  let reader ← responseReader r (expectedResponseId .currentTimeGet)
  let (minutes, _) ← liftProtocol (readUInt32 reader)
  return minutes

theorem responseReader_ok {command : CommandId} {r : Response}
    (hid : r.responseId = expectedResponseId command) (hstatus : r.status = statusSuccess) :
    responseReader r (expectedResponseId command) = .ok r.payload := by
  have hok : r.ok = true := by simp [Response.ok, hstatus]
  simp [responseReader, hid, Response.raiseForStatus, hok]

theorem parseBytes_length {command : CommandId} {count : Nat} {r : Response} {raw : Bytes}
    (h : parseBytes command count r = .ok raw) : raw.length = count := by
  simp only [parseBytes, bind_eq_ok] at h
  obtain ⟨reader, _, ⟨xs, rest⟩, hread, hok⟩ := h
  cases ht : take count reader with
  | error e => simp [readBytes, ht, liftProtocol] at hread
  | ok out =>
    simp only [readBytes, ht, liftProtocol, Except.ok.injEq] at hread
    subst hread
    simp only [pure_eq_ok, Except.ok.injEq] at hok
    exact hok ▸ (take_eq_ok.mp ht).2

/-! The two events. -/

inductive LockEvent
  | lockStatus (slot state method : Nat)
  | userAdded (slot status : Nat)
  deriving DecidableEq, Repr

def requiredMember (name : String) (members : List Nat) (value : Nat) : Except BleProtocolError Nat :=
  if value ∈ members then .ok value else .error ⟨s!"Unknown {name} value {value}"⟩

def parseLockStatus (r : Response) : Except BleProtocolError LockEvent := do
  let (slot, reader) ← readUInt16 r.payload
  let (raw, reader) ← readUInt8 reader
  let state ← requiredMember "LockStateId" [1, 2] raw
  let (raw, _) ← readUInt8 reader
  let method ← requiredMember "DoorlockMethodId" [0, 1, 2, 3, 4, 5] raw
  return .lockStatus slot state method

def parseUserAdded (r : Response) : Except BleProtocolError LockEvent := do
  let (slot, reader) ← readUInt16 r.payload
  let (raw, _) ← readUInt8 reader
  return .userAdded slot (← requiredMember "UserAddedStatusId" [0, 1, 2, 3, 4] raw)

/-- The event in an unsolicited response, or `none` for anything else. -/
def parseEvent (r : Response) : Except BleProtocolError (Option LockEvent) := do
  if r.isEvent = false then return none
  if r.responseId = responseLockStatus then return some (← parseLockStatus r)
  if r.responseId = responseUserAdded then return some (← parseUserAdded r)
  return none

end OnestiLock
