import OnestiLock.Streams

/-! Layer 2 commands, their references, and Layer 3 responses
(`ble/protocol/command.py`, `response.py` and `features.py`). -/

namespace OnestiLock

structure CommandPayload where
  commandId : CommandId
  data : Bytes := []
  deriving DecidableEq, Repr

structure Command where
  commandId : CommandId
  commandRef : Nat
  payload : Bytes := []
  rfu : Nat := 0
  deriving DecidableEq, Repr

def CommandPayload.withRef (c : CommandPayload) (commandRef : Nat) : Command :=
  ⟨c.commandId, commandRef, c.data, 0⟩

def Command.toBytes (c : Command) : Except BleValidationError Bytes := do
  if c.commandRef < commandRefMin ∨ commandRefMax < c.commandRef then
    throw ⟨s!"CommandRef {c.commandRef} is outside {commandRefMin}-{commandRefMax}"⟩
  if c.payload.length > packetPayloadMax then
    throw ⟨s!"Command payload of {c.payload.length} bytes exceeds {packetPayloadMax}"⟩
  let buffer ← writeUInt8 [] c.commandId.value
  let buffer ← writeUInt8 buffer c.payload.length
  let buffer ← writeUInt8 buffer c.commandRef
  let buffer ← writeUInt8 buffer c.rfu
  return buffer ++ c.payload

def Command.fromBytes (data : Bytes) : Except BleProtocolError Command := do
  if data.length < commandHeaderSize then
    throw ⟨s!"Command of {data.length} byte(s) is shorter than its {commandHeaderSize}-byte header"⟩
  let (rawId, reader) ← readUInt8 data
  match CommandId.ofValue? rawId with
  | none => throw ⟨s!"Unknown command id 0x{hexByte rawId}"⟩
  | some commandId =>
    let (length, reader) ← readUInt8 reader
    let (commandRef, reader) ← readUInt8 reader
    let (rfu, reader) ← readUInt8 reader
    let (payload, _) ← readBytes length reader
    return ⟨commandId, commandRef, payload, rfu⟩

/-- A command whose fields fit the wire, so that `toBytes` accepts it. -/
structure Command.Fits (c : Command) : Prop where
  refMin : commandRefMin ≤ c.commandRef
  refMax : c.commandRef ≤ commandRefMax
  rfu : c.rfu < 256
  payload : c.payload.length ≤ packetPayloadMax

def Command.wire (c : Command) : Bytes :=
  UInt8.ofNat c.commandId.value :: UInt8.ofNat c.payload.length :: UInt8.ofNat c.commandRef ::
    UInt8.ofNat c.rfu :: c.payload

theorem Command.wire_length (c : Command) : c.wire.length = commandHeaderSize + c.payload.length := by
  simp only [Command.wire, List.length_cons, commandHeaderSize]
  omega

theorem Command.Fits.toBytes {c : Command} (h : c.Fits) : c.toBytes = .ok c.wire := by
  have hmin := h.refMin
  have hmax := h.refMax
  have hpayload := h.payload
  have hrange : ¬ (c.commandRef < commandRefMin ∨ commandRefMax < c.commandRef) := by omega
  have hfits : ¬ c.payload.length > packetPayloadMax := by omega
  have hlen : c.payload.length < 256 := by unfold packetPayloadMax at hpayload; omega
  have href : c.commandRef < 256 := by unfold commandRefMax at hmax; omega
  simp only [Command.toBytes, hrange, hfits, if_false, pure_eq_ok, ok_bind,
    writeUInt8_ok c.commandId.value_lt, writeUInt8_ok hlen, writeUInt8_ok href, writeUInt8_ok h.rfu]
  rfl

theorem Command.Fits.fromBytes_wire {c : Command} (h : c.Fits) (tail : Bytes) :
    Command.fromBytes (c.wire ++ tail) = .ok c := by
  have hmax := h.refMax
  have hpayload := h.payload
  have hlen : c.payload.length < 256 := by unfold packetPayloadMax at hpayload; omega
  have href : c.commandRef < 256 := by unfold commandRefMax at hmax; omega
  have hshort : ¬ (c.wire ++ tail).length < commandHeaderSize := by
    rw [List.length_append, Command.wire_length]
    omega
  unfold Command.fromBytes
  rw [if_neg hshort]
  simp only [Command.wire, List.cons_append, pure_eq_ok, ok_bind, readUInt8_cons,
    toNat_ofNat_of_lt c.commandId.value_lt, CommandId.ofValue?_value, toNat_ofNat_of_lt hlen,
    toNat_ofNat_of_lt href, toNat_ofNat_of_lt h.rfu, readBytes_append]

/-! Command references. -/

/-- `_next` is what the counter hands out next; a static one never moves. -/
structure CommandRefCounter where
  isStatic : Bool
  nextRef : Nat
  deriving DecidableEq, Repr

namespace CommandRefCounter

def forFirmware (firmware : FirmwareVersion) : CommandRefCounter :=
  ⟨firmware.lt minFirmwareAdmin, commandRefMin⟩

def next (c : CommandRefCounter) : Nat × CommandRefCounter :=
  if c.isStatic then (commandRefStatic, c)
  else
    let ref := c.nextRef
    (ref, { c with nextRef := if ref + 1 < commandRefCounterWrap then ref + 1 else commandRefMin })

end CommandRefCounter

/-! Responses. -/

def eventCommandRef : Nat := 0x80

/-- The id and the status stay the raw bytes: `ResponseId` and
`ResponseStatusId` are integers, and compare as such. -/
structure Response where
  responseId : Nat
  commandRef : Nat
  status : Nat
  payload : Bytes := []
  deriving DecidableEq, Repr

def expectedResponseId (c : CommandId) : Nat := c.value

namespace Response

def ok (r : Response) : Bool := r.status == statusSuccess

def isEvent (r : Response) : Bool := r.commandRef == eventCommandRef

def raiseForStatus (r : Response) : Except BleError Unit :=
  if r.ok then .ok () else .error (errorForStatus r.status r.responseId)

def toBytes (r : Response) : Except BleValidationError Bytes := do
  let buffer ← writeUInt8 [] r.responseId
  let buffer ← writeUInt8 buffer r.payload.length
  let buffer ← writeUInt8 buffer r.commandRef
  let buffer ← writeUInt8 buffer r.status
  return buffer ++ r.payload

def fromBytes (data : Bytes) : Except BleProtocolError Response := do
  if data.length < responseHeaderSize then
    throw ⟨s!"Response of {data.length} byte(s) is shorter than its {responseHeaderSize}-byte header"⟩
  let (responseId, reader) ← readUInt8 data
  let (length, reader) ← readUInt8 reader
  let (commandRef, reader) ← readUInt8 reader
  let (status, reader) ← readUInt8 reader
  let (payload, _) ← readBytes length reader
  return ⟨responseId, commandRef, status, payload⟩

end Response

/-- A response whose fields fit the wire. Every parsed one does. -/
structure Response.Fits (r : Response) : Prop where
  responseId : r.responseId < 256
  commandRef : r.commandRef < 256
  status : r.status < 256
  payload : r.payload.length ≤ packetPayloadMax

def Response.wire (r : Response) : Bytes :=
  UInt8.ofNat r.responseId :: UInt8.ofNat r.payload.length :: UInt8.ofNat r.commandRef ::
    UInt8.ofNat r.status :: r.payload

theorem Response.wire_length (r : Response) :
    r.wire.length = responseHeaderSize + r.payload.length := by
  simp only [Response.wire, List.length_cons, responseHeaderSize]
  omega

theorem Response.Fits.toBytes {r : Response} (h : r.Fits) : r.toBytes = .ok r.wire := by
  have hpayload := h.payload
  have hlen : r.payload.length < 256 := by unfold packetPayloadMax at hpayload; omega
  simp only [Response.toBytes, pure_eq_ok, ok_bind, writeUInt8_ok h.responseId, writeUInt8_ok hlen,
    writeUInt8_ok h.commandRef, writeUInt8_ok h.status]
  rfl

theorem Response.Fits.fromBytes_wire {r : Response} (h : r.Fits) (tail : Bytes) :
    Response.fromBytes (r.wire ++ tail) = .ok r := by
  have hpayload := h.payload
  have hlen : r.payload.length < 256 := by unfold packetPayloadMax at hpayload; omega
  have hshort : ¬ (r.wire ++ tail).length < responseHeaderSize := by
    rw [List.length_append, Response.wire_length]
    omega
  unfold Response.fromBytes
  rw [if_neg hshort]
  simp only [Response.wire, List.cons_append, pure_eq_ok, ok_bind, readUInt8_cons,
    toNat_ofNat_of_lt h.responseId, toNat_ofNat_of_lt hlen, toNat_ofNat_of_lt h.commandRef,
    toNat_ofNat_of_lt h.status, readBytes_append]

theorem Response.fits_of_fromBytes {data : Bytes} {r : Response}
    (h : Response.fromBytes data = .ok r) : r.Fits := by
  by_cases hshort : data.length < responseHeaderSize
  · simp [Response.fromBytes, hshort] at h
  · simp only [Response.fromBytes, hshort, if_false] at h
    obtain ⟨⟨responseId, reader⟩, hid, h⟩ := bind_eq_ok.mp h
    obtain ⟨⟨length, reader⟩, hlength, h⟩ := bind_eq_ok.mp h
    obtain ⟨⟨commandRef, reader⟩, href, h⟩ := bind_eq_ok.mp h
    obtain ⟨⟨status, reader⟩, hstatus, h⟩ := bind_eq_ok.mp h
    obtain ⟨⟨payload, reader⟩, hpayload, h⟩ := bind_eq_ok.mp h
    cases h
    have hsize := length_of_readBytes hpayload
    have hmax := readUInt8_lt hlength
    refine ⟨readUInt8_lt hid, readUInt8_lt href, readUInt8_lt hstatus, ?_⟩
    simp only [packetPayloadMax]
    omega

/-! What the app would send (`features.py`). -/

def firmwareGated : List CommandId :=
  [.pinCodeSet, .pinCodeClear, .autoLockSet, .rfidCodeClear, .scanRfidCode, .volumeSet,
    .battInfoGet, .deviceModelGet]

def isMasterPin (command : CommandPayload) : Bool :=
  command.commandId == .pinCodeSet && command.data.take 2 == [0, 0]

def modelGated (adminFirmware : Bool) (model : Option Nat) (has : ModelFeatures → Bool)
    (belowFirmware : DeviceFeature) : DeviceFeature :=
  if adminFirmware = false then belowFirmware
  else if has (modelFeatures (model.getD lockModelUnknown)) then .available else .unavailable

def availability (command : CommandPayload) (firmware : FirmwareVersion) (model : Option Nat) :
    DeviceFeature :=
  let adminFirmware := !firmware.lt minFirmwareAdmin
  let commandId := command.commandId
  if commandId = .fingerprintScan ∨ commandId = .fingerprintClear then
    modelGated adminFirmware model ModelFeatures.fingerprint .unavailableUnknown
  else if commandId = .keypadEnableSet then
    modelGated adminFirmware model ModelFeatures.keypadEnable .unavailableUnknown
  else if isMasterPin command then
    modelGated adminFirmware model ModelFeatures.masterPin .unavailableVersion
  else if commandId ∈ firmwareGated then
    if adminFirmware then .available else .unavailableVersion
  else .availableAlways

end OnestiLock
