import OnestiLock.Streams

/-! Layer 1 packets and the cutting of a payload into packets
(`ble/protocol/packet.py` and the header of `ble/protocol/blob.py`). -/

namespace OnestiLock

structure Packet where
  packetType : PacketTypeId
  sequenceNumber : Nat
  payload : Bytes := []
  rfu : Nat := 0
  deriving DecidableEq, Repr

def Packet.toBytes (p : Packet) : Except BleValidationError Bytes := do
  if p.payload.length > packetPayloadMax then
    throw ⟨s!"Packet payload of {p.payload.length} bytes exceeds {packetPayloadMax}"⟩
  let buffer ← writeUInt8 [] p.packetType.value
  let buffer ← writeUInt8 buffer p.payload.length
  let buffer ← writeUInt8 buffer p.rfu
  let buffer ← writeUInt8 buffer p.sequenceNumber
  return buffer ++ p.payload

/-- Parse one notification. Bytes after the declared payload are ignored. -/
def Packet.fromBytes (data : Bytes) : Except BleProtocolError Packet := do
  if data.length < packetHeaderSize then
    throw ⟨s!"Packet of {data.length} byte(s) is shorter than its {packetHeaderSize}-byte header"⟩
  let (rawType, reader) ← readUInt8 data
  match PacketTypeId.ofValue? rawType with
  | none => throw ⟨s!"Unknown packet type 0x{hexByte rawType}"⟩
  | some packetType =>
    let (length, reader) ← readUInt8 reader
    let (rfu, reader) ← readUInt8 reader
    let (sequenceNumber, reader) ← readUInt8 reader
    let (payload, _) ← readBytes length reader
    return ⟨packetType, sequenceNumber, payload, rfu⟩

/-- A packet whose fields fit the wire, so that `toBytes` accepts it. -/
structure Packet.Fits (p : Packet) : Prop where
  payload : p.payload.length ≤ packetPayloadMax
  rfu : p.rfu < 256
  sequence : p.sequenceNumber < 256

/-- The four header bytes followed by the payload. -/
def Packet.wire (p : Packet) : Bytes :=
  UInt8.ofNat p.packetType.value :: UInt8.ofNat p.payload.length :: UInt8.ofNat p.rfu ::
    UInt8.ofNat p.sequenceNumber :: p.payload

theorem Packet.Fits.toBytes {p : Packet} (h : p.Fits) : p.toBytes = .ok p.wire := by
  have hp := h.payload
  have hlen : ¬ p.payload.length > packetPayloadMax := by omega
  have h255 : p.payload.length < 256 := by unfold packetPayloadMax at hp; omega
  simp only [Packet.toBytes, hlen, if_false, pure_eq_ok, ok_bind, writeUInt8_ok p.packetType.value_lt,
    writeUInt8_ok h255, writeUInt8_ok h.rfu, writeUInt8_ok h.sequence]
  rfl

theorem Packet.wire_length (p : Packet) : p.wire.length = packetHeaderSize + p.payload.length := by
  simp [Packet.wire, packetHeaderSize]
  omega

/-- Parsing what was written gives the packet back, whatever follows it. -/
theorem Packet.Fits.fromBytes_wire {p : Packet} (h : p.Fits) (tail : Bytes) :
    Packet.fromBytes (p.wire ++ tail) = .ok p := by
  have hp := h.payload
  have h255 : p.payload.length < 256 := by unfold packetPayloadMax at hp; omega
  have hshort : ¬ (p.wire ++ tail).length < packetHeaderSize := by
    rw [List.length_append, Packet.wire_length]
    omega
  unfold Packet.fromBytes
  rw [if_neg hshort]
  simp only [Packet.wire, List.cons_append, pure_eq_ok, ok_bind, readUInt8_cons,
    toNat_ofNat_of_lt p.packetType.value_lt, PacketTypeId.ofValue?_value,
    toNat_ofNat_of_lt h255, toNat_ofNat_of_lt h.rfu, toNat_ofNat_of_lt h.sequence,
    readBytes_append]

/-! Blob headers. -/

def blobLengthMax : Nat := 0xFFFF

structure BlobHeader where
  length : Nat
  flags : Nat := 0
  rfu : Nat := 0
  deriving DecidableEq, Repr

def BlobHeader.forPayload (length : Nat) (encrypted : Bool) : BlobHeader :=
  { length := length, flags := if encrypted then blobFlagEncrypted else 0 }

/-- Bit 0 of the flags. -/
def BlobHeader.encrypted (h : BlobHeader) : Bool := (h.flags &&& blobFlagEncrypted) != 0

def BlobHeader.toBytes (h : BlobHeader) : Except BleValidationError Bytes := do
  let buffer ← writeUInt8 [] h.flags
  let buffer ← writeUInt16 buffer h.length
  writeUInt8 buffer h.rfu

/-- The header of a BlobStart packet's payload, and the chunk after it. -/
def BlobHeader.split (startPayload : Bytes) : Except BleProtocolError (BlobHeader × Bytes) := do
  if startPayload.length < blobHeaderSize then
    throw ⟨s!"BlobStart payload is {startPayload.length} byte(s), shorter than the {blobHeaderSize}-byte header"⟩
  let (flags, reader) ← readUInt8 startPayload
  let (length, reader) ← readUInt16 reader
  let (rfu, reader) ← readUInt8 reader
  return (⟨length, flags, rfu⟩, reader)

structure BlobHeader.Fits (h : BlobHeader) : Prop where
  length : h.length ≤ blobLengthMax
  flags : h.flags < 256
  rfu : h.rfu < 256

def BlobHeader.wire (h : BlobHeader) : Bytes :=
  UInt8.ofNat h.flags :: (toLittleEndian h.length 2 ++ [UInt8.ofNat h.rfu])

theorem BlobHeader.wire_length (h : BlobHeader) : h.wire.length = blobHeaderSize := by
  simp [BlobHeader.wire, blobHeaderSize]

theorem BlobHeader.Fits.toBytes {h : BlobHeader} (hf : h.Fits) : h.toBytes = .ok h.wire := by
  have hl : h.length < 65536 := by
    have := hf.length
    unfold blobLengthMax at this
    omega
  simp only [BlobHeader.toBytes, writeUInt8_ok hf.flags, ok_bind, writeUInt16_ok hl,
    writeUInt8_ok hf.rfu]
  rfl

theorem BlobHeader.Fits.split_wire {h : BlobHeader} (hf : h.Fits) (chunk : Bytes) :
    BlobHeader.split (h.wire ++ chunk) = .ok (h, chunk) := by
  have hl : h.length < 65536 := by
    have := hf.length
    unfold blobLengthMax at this
    omega
  have hshort : ¬ (h.wire ++ chunk).length < blobHeaderSize := by
    simp [BlobHeader.wire_length]
  unfold BlobHeader.split
  rw [if_neg hshort]
  simp only [BlobHeader.wire, List.cons_append, List.append_assoc, List.nil_append, pure_eq_ok, ok_bind,
    readUInt8_cons, readUInt16_append hl, toNat_ofNat_of_lt hf.flags, toNat_ofNat_of_lt hf.rfu]

theorem BlobHeader.forPayload_fits {length : Nat} {encrypted : Bool} (h : length ≤ blobLengthMax) :
    (BlobHeader.forPayload length encrypted).Fits := by
  refine ⟨h, ?_, by simp [BlobHeader.forPayload]⟩
  cases encrypted <;> simp [BlobHeader.forPayload, blobFlagEncrypted]

theorem BlobHeader.forPayload_encrypted (length : Nat) (encrypted : Bool) :
    (BlobHeader.forPayload length encrypted).encrypted = encrypted := by
  cases encrypted <;> simp [BlobHeader.encrypted, BlobHeader.forPayload, blobFlagEncrypted]

/-! Cutting. -/

def mtuMin : Nat := attOverhead + packetHeaderSize + blobHeaderSize + 1

def mtuTooSmall (mtu : Nat) : BleValidationError :=
  ⟨s!"MTU {mtu} is too small; the protocol needs at least {mtuMin}"⟩

/-- Payload bytes one packet can carry. -/
def packetRoom (mtu : Nat) : Except BleValidationError Nat :=
  if mtu < mtuMin then .error (mtuTooSmall mtu)
  else .ok (min (mtu - attOverhead - packetHeaderSize) packetPayloadMax)

theorem packetRoom_ok {mtu : Nat} (h : mtuMin ≤ mtu) :
    packetRoom mtu = .ok (min (mtu - attOverhead - packetHeaderSize) packetPayloadMax) := by
  simp [packetRoom, h]

/-- The `while` loop of `packetize`, on the bytes not cut yet. Every turn
takes at least one byte, so the fuel is the number of bytes. -/
def blobRest (room : Nat) : Nat → Nat → Bytes → List Packet
  | 0, _, _ => []
  | fuel + 1, sequence, rest =>
    if rest = [] then [] else
      let sequence := (sequence + 1) % 256
      let chunk := rest.take room
      let packetType := if rest.drop room = [] then PacketTypeId.blobComplete else .blobStream
      ⟨packetType, sequence, chunk, 0⟩ :: blobRest room fuel sequence (rest.drop room)

/-- Cut one payload into the packets that carry it. -/
def packetize (payload : Bytes) (encrypted : Bool) (mtu : Nat) :
    Except BleValidationError (List Packet) := do
  if payload = [] then throw ⟨"Cannot send an empty payload"⟩
  let room ← packetRoom mtu
  let sequence := firstSequenceNumber
  if payload.length + packetHeaderSize ≤ room then
    return [⟨if encrypted then .singleEncrypted else .single, sequence, payload, 0⟩]
  if payload.length > blobLengthMax then
    throw ⟨s!"Payload of {payload.length} bytes exceeds the blob limit of {blobLengthMax}"⟩
  let first := room - blobHeaderSize
  let header ← (BlobHeader.forPayload payload.length encrypted).toBytes
  return ⟨.blobStart, sequence, header ++ payload.take first, 0⟩ ::
    blobRest room payload.length sequence (payload.drop first)

end OnestiLock
