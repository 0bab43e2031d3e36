import OnestiLock.Packet

/-! Reassembly of incoming packets (`BlobAssembler` and `PacketStream`). -/

namespace OnestiLock

/-- What a packet stream needs from an encrypter. -/
structure PayloadCipher where
  encrypt : Bytes → Bytes
  decrypt : Bytes → Except BleProtocolError Bytes

structure BlobAssembler where
  header : BlobHeader
  buffer : Bytes
  completed : Bool
  within : buffer.length ≤ header.length

namespace BlobAssembler

def append (blob : BlobAssembler) (chunk : Bytes) : Except BleProtocolError BlobAssembler := do
  if blob.completed then throw ⟨"Blob already completed"⟩
  if h : blob.buffer.length + chunk.length ≤ blob.header.length then
    return { blob with buffer := blob.buffer ++ chunk, within := by rwa [List.length_append] }
  throw ⟨s!"Blob overflows its declared length of {blob.header.length} byte(s) ({blob.buffer.length + chunk.length} received)"⟩

/-- The constructor: split off the header and take the first chunk. -/
def start (startPayload : Bytes) : Except BleProtocolError BlobAssembler := do
  let (header, firstChunk) ← BlobHeader.split startPayload
  append ⟨header, [], false, Nat.zero_le _⟩ firstChunk

def complete (blob : BlobAssembler) (chunk : Bytes) :
    Except BleProtocolError (Bytes × BlobAssembler) := do
  let blob ← append blob chunk
  if blob.buffer.length ≠ blob.header.length then
    throw ⟨s!"Blob declared {blob.header.length} byte(s) but carried {blob.buffer.length}"⟩
  return (blob.buffer, { blob with completed := true })

theorem append_ok {blob : BlobAssembler} {chunk : Bytes} (hc : blob.completed = false)
    (h : blob.buffer.length + chunk.length ≤ blob.header.length) :
    ∃ blob', blob.append chunk = .ok blob' ∧ blob'.header = blob.header ∧
      blob'.buffer = blob.buffer ++ chunk ∧ blob'.completed = false := by
  refine ⟨{ blob with buffer := blob.buffer ++ chunk, within := by rwa [List.length_append] }, ?_, rfl, rfl, hc⟩
  simp [append, hc, h]

theorem complete_ok {blob : BlobAssembler} {chunk : Bytes} (hc : blob.completed = false)
    (h : blob.buffer.length + chunk.length = blob.header.length) :
    ∃ blob', blob.complete chunk = .ok (blob.buffer ++ chunk, blob') ∧
      blob'.header = blob.header := by
  obtain ⟨blob', ha, hh, hb, _⟩ := append_ok hc (Nat.le_of_eq h)
  refine ⟨{ blob' with completed := true }, ?_, hh⟩
  simp [complete, ha, hb, hh, h]

end BlobAssembler

structure ReceivedPayload where
  data : Bytes
  encrypted : Bool
  deriving DecidableEq, Repr

/-- What `receive` returns: a whole payload, a status packet, or `None`. -/
inductive Received
  | payload (p : ReceivedPayload)
  | status (p : Packet)
  | none
  deriving DecidableEq, Repr

/-- The constructor refuses a small MTU, so every stream has room to frame in. -/
structure PacketStream where
  mtu : Nat
  cipher : Option PayloadCipher
  blob : Option BlobAssembler
  lastSequence : Nat
  mtu_ok : mtuMin ≤ mtu

namespace PacketStream

/-- `PacketStream(mtu=mtu, cipher=cipher)`. -/
def new (mtu : Nat) (cipher : Option PayloadCipher) : Except BleValidationError PacketStream :=
  if h : mtuMin ≤ mtu then .ok ⟨mtu, cipher, none, 0, h⟩
  else .error (mtuTooSmall mtu)

def receivingBlob (s : PacketStream) : Bool := s.blob.isSome

/-- The writes that send `payload`, encrypted first when there is a cipher. -/
def frame (s : PacketStream) (payload : Bytes) : Except BleValidationError (List Bytes) := do
  let payload := match s.cipher with
    | some cipher => cipher.encrypt payload
    | none => payload
  let packets ← packetize payload s.cipher.isSome s.mtu
  packets.mapM Packet.toBytes

def reset (s : PacketStream) : PacketStream := { s with blob := none, lastSequence := 0 }

def expectNoBlob (s : PacketStream) (packet : Packet) : Except BleProtocolError Unit :=
  if s.blob.isSome then
    .error ⟨s!"{packet.packetType.name} packet arrived in the middle of a blob"⟩
  else .ok ()

/-- The assembler the packet continues, and the stream with its sequence number noted. -/
def nextInBlob (s : PacketStream) (packet : Packet) :
    Except BleProtocolError (BlobAssembler × PacketStream) :=
  match s.blob with
  | none => .error ⟨s!"{packet.packetType.name} packet arrived with no blob started"⟩
  | some blob =>
    let expected := (s.lastSequence + 1) % 256
    if packet.sequenceNumber ≠ expected then
      .error ⟨s!"Expected sequence number {expected}, got {packet.sequenceNumber}"⟩
    else .ok (blob, { s with lastSequence := packet.sequenceNumber })

def deliver (s : PacketStream) (data : Bytes) (encrypted : Bool) :
    Except BleProtocolError Received := do
  match s.cipher with
  | some cipher => return .payload ⟨← cipher.decrypt data, encrypted⟩
  | none => return .payload ⟨data, encrypted⟩

/-- `_receive`. The stream of a raised error is settled by `receive`, which resets it. -/
def receivePacket (s : PacketStream) (packet : Packet) :
    Except BleProtocolError (Received × PacketStream) := do
  match packet.packetType with
  | .single | .singleEncrypted =>
    s.expectNoBlob packet
    return (← s.deliver packet.payload (packet.packetType == .singleEncrypted), s)
  | .blobStart =>
    s.expectNoBlob packet
    let blob ← BlobAssembler.start packet.payload
    return (.none, { s with blob := some blob, lastSequence := packet.sequenceNumber })
  | .blobStream =>
    let (blob, s) ← s.nextInBlob packet
    let blob ← blob.append packet.payload
    return (.none, { s with blob := some blob })
  | .blobComplete =>
    let (blob, s) ← s.nextInBlob packet
    let (data, blob) ← blob.complete packet.payload
    let s := s.reset
    return (← s.deliver data blob.header.encrypted, s)
  | .ack | .nac | .error => return (.status packet, s)

/-- `receive`: what the call returns or raises, and the stream afterwards. -/
def receive (s : PacketStream) (data : Bytes) : Except BleProtocolError Received × PacketStream :=
  match (Packet.fromBytes data >>= s.receivePacket : Except _ _) with
  | .ok (received, s') => (.ok received, s')
  | .error e => (.error e, s.reset)

/-- The calls of `receive` on a list of notifications, in order. -/
def receiveAll (s : PacketStream) : List Bytes → List (Except BleProtocolError Received) × PacketStream
  | [] => ([], s)
  | data :: rest =>
    let (result, s') := s.receive data
    let (results, s'') := receiveAll s' rest
    (result :: results, s'')

theorem receiveAll_append (s : PacketStream) (xs ys : List Bytes) :
    s.receiveAll (xs ++ ys) =
      ((s.receiveAll xs).1 ++ ((s.receiveAll xs).2.receiveAll ys).1,
        ((s.receiveAll xs).2.receiveAll ys).2) := by
  induction xs generalizing s with
  | nil => rfl
  | cons x xs ih => simp [receiveAll, ih]

/-- What one packet does to the stream, spelled out once. -/
theorem receive_eq_of_fromBytes {s s' : PacketStream} {data : Bytes} {packet : Packet}
    {received : Received} (hp : Packet.fromBytes data = .ok packet)
    (hr : s.receivePacket packet = .ok (received, s')) : s.receive data = (.ok received, s') := by
  simp [receive, hp, hr]

theorem receive_wire {s s' : PacketStream} {packet : Packet} {received : Received}
    (hf : packet.Fits) (hr : s.receivePacket packet = .ok (received, s')) :
    s.receive packet.wire = (.ok received, s') := by
  have hp := hf.fromBytes_wire []
  rw [List.append_nil] at hp
  exact receive_eq_of_fromBytes hp hr

theorem receivePacket_status {s : PacketStream} {packet : Packet}
    (h : packet.packetType = .ack ∨ packet.packetType = .nac ∨ packet.packetType = .error) :
    s.receivePacket packet = .ok (.status packet, s) := by
  rcases h with h | h | h <;> simp [receivePacket, h]

theorem receivePacket_single {s : PacketStream} {packet : Packet} (hb : s.blob = none)
    (h : packet.packetType = .single ∨ packet.packetType = .singleEncrypted)
    {received : Received}
    (hd : s.deliver packet.payload (packet.packetType == .singleEncrypted) = .ok received) :
    s.receivePacket packet = .ok (received, s) := by
  rcases h with h | h <;> simp [h] at hd <;> simp [receivePacket, h, expectNoBlob, hb, hd]

end PacketStream

end OnestiLock
