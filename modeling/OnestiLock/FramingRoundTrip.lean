import OnestiLock.Crypto

/-! Framing and reassembly agree: the packets `frame` cuts give the receiver
back exactly the payload, whatever status packets arrive between them. -/

namespace OnestiLock

namespace Packet

theorem mapM_toBytes {packets : List Packet} (h : ∀ p ∈ packets, p.Fits) :
    packets.mapM Packet.toBytes = .ok (packets.map Packet.wire) := by
  induction packets with
  | nil => rfl
  | cons p packets ih =>
    have hp := (h p (by simp)).toBytes
    have hrest := ih (fun q hq => h q (by simp [hq]))
    simp [List.mapM_cons, hp, hrest]

end Packet

/-! What `packetize` produces. -/

theorem blobRest_fits {room : Nat} (hroom : room ≤ packetPayloadMax) (fuel sequence : Nat)
    (rest : Bytes) : ∀ p ∈ blobRest room fuel sequence rest, p.Fits ∧ p.payload.length ≤ room := by
  induction fuel generalizing sequence rest with
  | zero => simp [blobRest]
  | succ fuel ih =>
    intro p hp
    by_cases hr : rest = []
    · simp [blobRest, hr] at hp
    · simp only [blobRest, hr, if_false, List.mem_cons] at hp
      rcases hp with rfl | hp
      · have hlen : (rest.take room).length ≤ room := List.length_take_le _ _
        exact ⟨⟨Nat.le_trans hlen hroom, (by decide : 0 < 256), Nat.mod_lt _ (by decide)⟩, hlen⟩
      · exact ih _ _ p hp

theorem blobRest_ne_nil {room fuel sequence : Nat} {rest : Bytes} (hr : rest ≠ [])
    (hfuel : rest.length ≤ fuel) : blobRest room fuel sequence rest ≠ [] := by
  cases fuel with
  | zero => exact absurd (List.length_eq_zero_iff.mp (by omega)) hr
  | succ fuel => simp [blobRest, hr]

namespace PacketStream

theorem deliver_congr {s t : PacketStream} (h : s.cipher = t.cipher) (data : Bytes)
    (encrypted : Bool) : s.deliver data encrypted = t.deliver data encrypted := by
  simp only [deliver, h]

theorem receivePacket_blobStart {s : PacketStream} {packet : Packet} {header : BlobHeader}
    {chunk : Bytes} (hb : s.blob = none) (ht : packet.packetType = .blobStart)
    (hs : BlobHeader.split packet.payload = .ok (header, chunk))
    (hlen : chunk.length ≤ header.length) :
    ∃ blob, s.receivePacket packet =
        .ok (.none, { s with blob := some blob, lastSequence := packet.sequenceNumber }) ∧
      blob.header = header ∧ blob.buffer = chunk ∧ blob.completed = false := by
  let empty : BlobAssembler := ⟨header, [], false, Nat.zero_le _⟩
  have hroom : empty.buffer.length + chunk.length ≤ empty.header.length := by simpa [empty] using hlen
  obtain ⟨blob, ha, hh, hbuf, hc⟩ := BlobAssembler.append_ok rfl hroom
  refine ⟨blob, ?_, hh, by simpa [empty] using hbuf, hc⟩
  have hstart : BlobAssembler.start packet.payload = .ok blob := by
    simpa only [BlobAssembler.start, hs, ok_bind] using ha
  simp [receivePacket, ht, expectNoBlob, hb, hstart]

theorem receivePacket_blobStream {s : PacketStream} {packet : Packet} {blob : BlobAssembler}
    (hb : s.blob = some blob) (hc : blob.completed = false) (ht : packet.packetType = .blobStream)
    (hseq : packet.sequenceNumber = (s.lastSequence + 1) % 256)
    (hlen : blob.buffer.length + packet.payload.length ≤ blob.header.length) :
    ∃ blob', s.receivePacket packet =
        .ok (.none, { s with blob := some blob', lastSequence := packet.sequenceNumber }) ∧
      blob'.header = blob.header ∧ blob'.buffer = blob.buffer ++ packet.payload ∧
      blob'.completed = false := by
  obtain ⟨blob', ha, hh, hbuf, hc'⟩ := BlobAssembler.append_ok hc hlen
  refine ⟨blob', ?_, hh, hbuf, hc'⟩
  simp [receivePacket, ht, nextInBlob, hb, hseq, ha]

theorem receivePacket_blobComplete {s : PacketStream} {packet : Packet} {blob : BlobAssembler}
    {received : Received} (hb : s.blob = some blob) (hc : blob.completed = false)
    (ht : packet.packetType = .blobComplete)
    (hseq : packet.sequenceNumber = (s.lastSequence + 1) % 256)
    (hlen : blob.buffer.length + packet.payload.length = blob.header.length)
    (hd : s.deliver (blob.buffer ++ packet.payload) blob.header.encrypted = .ok received) :
    s.receivePacket packet = .ok (received, s.reset) := by
  obtain ⟨blob', ha, hh⟩ := BlobAssembler.complete_ok hc hlen
  have hd' : (reset { s with blob := some blob, lastSequence := (s.lastSequence + 1) % 256 }).deliver
      (blob.buffer ++ packet.payload) blob'.header.encrypted = .ok received := by
    rw [hh, ← hd]
    exact deliver_congr rfl _ _
  simp [receivePacket, ht, nextInBlob, hb, hseq, ha]
  rw [hd']
  rfl

/-- The loop's packets complete the blob in progress. The induction carries
the assembler's buffer and the sequence number from packet to packet. -/
theorem receiveAll_blobRest {room : Nat} (hpos : 0 < room) (hroom : room ≤ packetPayloadMax)
    (fuel : Nat) {s : PacketStream} {blob : BlobAssembler} {rest : Bytes} {received : Received}
    (hb : s.blob = some blob) (hc : blob.completed = false) (hr : rest ≠ [])
    (hfuel : rest.length ≤ fuel) (hlen : blob.buffer.length + rest.length = blob.header.length)
    (hd : s.deliver (blob.buffer ++ rest) blob.header.encrypted = .ok received) :
    s.receiveAll ((blobRest room fuel s.lastSequence rest).map Packet.wire) =
      (List.replicate ((blobRest room fuel s.lastSequence rest).length - 1) (.ok .none) ++
        [.ok received], s.reset) := by
  induction fuel generalizing s blob rest with
  | zero => exact absurd (List.length_eq_zero_iff.mp (by omega)) hr
  | succ fuel ih =>
    have hne := List.length_pos_iff.mpr hr
    have htake : (rest.take room).length ≤ packetPayloadMax :=
      Nat.le_trans (List.length_take_le _ _) hroom
    by_cases hlast : rest.drop room = []
    · have hall : rest.take room = rest := List.take_of_length_le (List.drop_eq_nil_iff.mp hlast)
      let last : Packet := ⟨.blobComplete, (s.lastSequence + 1) % 256, rest, 0⟩
      have hpackets : blobRest room (fuel + 1) s.lastSequence rest = [last] := by
        have hnil : ∀ n k, blobRest room n k [] = [] := by
          intro n k
          cases n <;> simp [blobRest]
        simp [blobRest, hr, hlast, hall, hnil, last]
      rw [hall] at htake
      have hfits : last.Fits := ⟨htake, (by decide : 0 < 256), Nat.mod_lt _ (by decide)⟩
      have hstep := receive_wire hfits (receivePacket_blobComplete hb hc rfl rfl hlen hd)
      simp [hpackets, receiveAll, hstep]
    · let chunk : Packet := ⟨.blobStream, (s.lastSequence + 1) % 256, rest.take room, 0⟩
      have hpackets : blobRest room (fuel + 1) s.lastSequence rest =
          chunk :: blobRest room fuel chunk.sequenceNumber (rest.drop room) := by
        simp [blobRest, hr, hlast, chunk]
      have hfits : chunk.Fits := ⟨htake, (by decide : 0 < 256), Nat.mod_lt _ (by decide)⟩
      have hsplit : (rest.take room).length + (rest.drop room).length = rest.length := by
        rw [← List.length_append, List.take_append_drop]
      have hroomy : blob.buffer.length + chunk.payload.length ≤ blob.header.length := by
        simp only [chunk]
        omega
      obtain ⟨blob', hstep, hh, hbuf, hc'⟩ := receivePacket_blobStream hb hc rfl rfl hroomy
      have hjoin : blob'.buffer ++ rest.drop room = blob.buffer ++ rest := by
        rw [hbuf, List.append_assoc, List.take_append_drop]
      let s' : PacketStream := { s with blob := some blob', lastSequence := chunk.sequenceNumber }
      have hfuel' : (rest.drop room).length ≤ fuel := by rw [List.length_drop]; omega
      have hlen' : blob'.buffer.length + (rest.drop room).length = blob'.header.length := by
        rw [← List.length_append, hjoin, hh, List.length_append, hlen]
      have hd' : s'.deliver (blob'.buffer ++ rest.drop room) blob'.header.encrypted = .ok received := by
        rw [hjoin, hh, ← hd]
        exact deliver_congr rfl _ _
      have hrest := ih (show s'.blob = some blob' from rfl) hc' hlast hfuel' hlen' hd'
      have hcount := List.length_pos_iff.mpr
        (blobRest_ne_nil hlast hfuel' : blobRest room fuel chunk.sequenceNumber (rest.drop room) ≠ [])
      obtain ⟨m, hm⟩ : ∃ m, (blobRest room fuel chunk.sequenceNumber (rest.drop room)).length = m + 1 :=
        ⟨_, (Nat.sub_add_cancel hcount).symm⟩
      rw [hpackets, List.map_cons, receiveAll, receive_wire hfits hstep]
      simp only [s', hm, Nat.add_sub_cancel] at hrest
      simp only [hrest, List.length_cons, hm, Nat.add_sub_cancel, List.replicate_succ, List.cons_append]
      rfl

end PacketStream

/-! Status packets between the writes of a payload. -/

/-- One notification fed to the receiver: a write of the sender, or a status
packet of the lock as it arrives and as it parses. -/
inductive Fed
  | write (data : Bytes)
  | status (data : Bytes) (packet : Packet)

namespace Fed

def data : Fed → Bytes
  | write data | status data _ => data

def write? : Fed → Option Bytes
  | write data => some data
  | status _ _ => none

/-- ACK, NAC and ERROR. -/
def IsStatus : Fed → Prop
  | write _ => True
  | status data packet => Packet.fromBytes data = .ok packet ∧
      (packet.packetType = .ack ∨ packet.packetType = .nac ∨ packet.packetType = .error)

end Fed

/-- The results of the whole feed, given the results of the writes in it. -/
def mergeResults : List Fed → List (Except BleProtocolError Received) →
    List (Except BleProtocolError Received)
  | [], _ => []
  | .status _ packet :: feed, results => .ok (.status packet) :: mergeResults feed results
  | .write _ :: feed, result :: results => result :: mergeResults feed results
  | .write _ :: _, [] => []

namespace PacketStream

theorem receiveAll_feed (s : PacketStream) {feed : List Fed} (h : ∀ f ∈ feed, f.IsStatus) :
    s.receiveAll (feed.map Fed.data) =
      (mergeResults feed (s.receiveAll (feed.filterMap Fed.write?)).1,
        (s.receiveAll (feed.filterMap Fed.write?)).2) := by
  induction feed generalizing s with
  | nil => rfl
  | cons f feed ih =>
    have hf := h f (by simp)
    have hrest := fun t => ih t (fun g hg => h g (by simp [hg]))
    cases f with
    | write data => simp [receiveAll, Fed.data, Fed.write?, mergeResults, hrest]
    | status data packet =>
      have hstep := receive_eq_of_fromBytes hf.1 (receivePacket_status (s := s) hf.2)
      simp [receiveAll, List.filterMap_cons, Fed.data, Fed.write?, mergeResults, hrest, hstep]

end PacketStream

/-- Ciphers of a sender and a receiver that belong together. `encrypt` pads,
so it never shortens a payload. -/
structure CipherPair (sender receiver : PayloadCipher) : Prop where
  decrypt_encrypt : ∀ p, receiver.decrypt (sender.encrypt p) = .ok (zeroPad p)
  length_le_encrypt : ∀ p : Bytes, p.length ≤ (sender.encrypt p).length

/-- No cipher on either side, or a pair. -/
def CiphersAgree : Option PayloadCipher → Option PayloadCipher → Prop
  | none, none => True
  | some sender, some receiver => CipherPair sender receiver
  | _, _ => False

def ciphered : Option PayloadCipher → Bytes → Bytes
  | some cipher, payload => cipher.encrypt payload
  | none, payload => payload

/-- The payload as the receiver sees it, zero-padded under a cipher. -/
def delivered : Option PayloadCipher → Bytes → Bytes
  | some _, payload => zeroPad payload
  | none, payload => payload

namespace PacketStream

theorem deliver_ciphered {sender receiver : PacketStream}
    (h : CiphersAgree sender.cipher receiver.cipher) (payload : Bytes) (encrypted : Bool) :
    receiver.deliver (ciphered sender.cipher payload) encrypted =
      .ok (.payload ⟨delivered sender.cipher payload, encrypted⟩) := by
  cases hs : sender.cipher <;> cases hr : receiver.cipher <;> simp only [hs, hr, CiphersAgree] at h
  · simp [deliver, hr, ciphered, delivered]
  · simp [deliver, hr, ciphered, delivered, h.decrypt_encrypt]

theorem ciphered_ne_nil {sender receiver : PacketStream}
    (h : CiphersAgree sender.cipher receiver.cipher) {payload : Bytes} (hp : payload ≠ []) :
    ciphered sender.cipher payload ≠ [] := by
  cases hs : sender.cipher <;> cases hr : receiver.cipher <;> simp only [hs, hr, CiphersAgree] at h
  · exact hp
  · intro he
    have hlen := h.length_le_encrypt payload
    simp only [ciphered] at he
    rw [he] at hlen
    exact hp (List.length_eq_zero_iff.mp (Nat.le_zero.mp hlen))

theorem frame_eq (s : PacketStream) (payload : Bytes) :
    s.frame payload =
      (packetize (ciphered s.cipher payload) s.cipher.isSome s.mtu >>= List.mapM Packet.toBytes) := by
  cases hs : s.cipher <;> simp [frame, hs, ciphered]

/-- The packets of a payload deliver it to every idle receiver. -/
def Carries (packets : List Packet) (payload : Bytes) (encrypted : Bool) : Prop :=
  ∀ receiver : PacketStream, receiver.blob = none → ∀ received,
    receiver.deliver payload encrypted = .ok received →
    ∃ receiver' : PacketStream, receiver.receiveAll (packets.map Packet.wire) =
        (List.replicate (packets.length - 1) (.ok .none) ++ [.ok received], receiver') ∧
      receiver'.blob = none ∧ receiver'.cipher = receiver.cipher

theorem carries_single {packet : Packet} {payload : Bytes} {encrypted : Bool} (hf : packet.Fits)
    (ht : packet.packetType = if encrypted then .singleEncrypted else .single)
    (hp : packet.payload = payload) : Carries [packet] payload encrypted := by
  intro receiver hb received hd
  have htype : packet.packetType = .single ∨ packet.packetType = .singleEncrypted := by
    cases encrypted <;> simp [ht]
  have henc : (packet.packetType == .singleEncrypted) = encrypted := by
    cases encrypted <;> simp [ht]
  have hstep := receive_wire hf (receivePacket_single hb htype (by rw [henc, hp]; exact hd))
  exact ⟨receiver, by simp [receiveAll, hstep], hb, rfl⟩

theorem carries_blob {room : Nat} {header : BlobHeader} {payload : Bytes} {encrypted : Bool}
    (hroom : room ≤ packetPayloadMax) (hfirst : blobHeaderSize < room)
    (hlong : room - blobHeaderSize < payload.length) (hh : header.Fits)
    (hlen : header.length = payload.length) (henc : header.encrypted = encrypted) :
    Carries (⟨.blobStart, firstSequenceNumber, header.wire ++ payload.take (room - blobHeaderSize), 0⟩ ::
      blobRest room payload.length firstSequenceNumber (payload.drop (room - blobHeaderSize)))
      payload encrypted := by
  intro receiver hb received hd
  let first : Packet :=
    ⟨.blobStart, firstSequenceNumber, header.wire ++ payload.take (room - blobHeaderSize), 0⟩
  let rest := payload.drop (room - blobHeaderSize)
  have hrest : rest ≠ [] := by
    simp only [rest, ne_eq, List.drop_eq_nil_iff]
    omega
  have htake : (payload.take (room - blobHeaderSize)).length ≤ room - blobHeaderSize :=
    List.length_take_le _ _
  have hfits : first.Fits := by
    refine ⟨?_, (by decide : 0 < 256), (by decide : firstSequenceNumber < 256)⟩
    simp only [first, List.length_append, BlobHeader.wire_length]
    omega
  have hchunk : (payload.take (room - blobHeaderSize)).length ≤ header.length := by
    rw [hlen]
    exact List.length_take_le' _ _
  obtain ⟨blob, hstep, hbh, hbuf, hbc⟩ :=
    receivePacket_blobStart hb (show first.packetType = .blobStart from rfl) (hh.split_wire _) hchunk
  have hjoin : blob.buffer ++ rest = payload := by rw [hbuf, List.take_append_drop]
  let started : PacketStream :=
    { receiver with blob := some blob, lastSequence := firstSequenceNumber }
  have hd' : started.deliver (blob.buffer ++ rest) blob.header.encrypted = .ok received := by
    rw [hjoin, hbh, henc, ← hd]
    exact deliver_congr rfl _ _
  have hlen' : blob.buffer.length + rest.length = blob.header.length := by
    rw [← List.length_append, hjoin, hbh, hlen]
  have hfuel : rest.length ≤ payload.length := by simp only [rest, List.length_drop]; omega
  have hblob := receiveAll_blobRest (Nat.lt_of_le_of_lt (Nat.zero_le _) hfirst) hroom payload.length
    (show started.blob = some blob from rfl) hbc hrest hfuel hlen' hd'
  have hcount := List.length_pos_iff.mpr
    (blobRest_ne_nil hrest hfuel : blobRest room payload.length firstSequenceNumber rest ≠ [])
  obtain ⟨m, hm⟩ : ∃ m, (blobRest room payload.length firstSequenceNumber rest).length = m + 1 :=
    ⟨_, (Nat.sub_add_cancel hcount).symm⟩
  refine ⟨started.reset, ?_, rfl, rfl⟩
  simp only [started, hm, Nat.add_sub_cancel] at hblob
  rw [List.map_cons, receiveAll, receive_wire hfits hstep]
  simp only [first, hblob, List.length_cons, rest, hm, Nat.add_sub_cancel, List.replicate_succ, List.cons_append]
  rfl

theorem packetize_carries {payload : Bytes} {mtu : Nat} (encrypted : Bool) (hp : payload ≠ [])
    (hlen : payload.length ≤ blobLengthMax) (hmtu : mtuMin ≤ mtu) :
    ∃ packets, packetize payload encrypted mtu = .ok packets ∧
      (∀ p ∈ packets, p.Fits ∧ packetHeaderSize + p.payload.length ≤ mtu - attOverhead) ∧
      Carries packets payload encrypted := by
  let room := min (mtu - attOverhead - packetHeaderSize) packetPayloadMax
  have hroom : packetRoom mtu = .ok room := packetRoom_ok hmtu
  have hmax : room ≤ packetPayloadMax := Nat.min_le_right _ _
  have hfit : packetHeaderSize + room ≤ mtu - attOverhead := by
    simp only [room, mtuMin, attOverhead, packetHeaderSize, blobHeaderSize, packetPayloadMax] at *
    omega
  have hfirst : blobHeaderSize < room := by
    simp only [room, mtuMin, attOverhead, packetHeaderSize, blobHeaderSize, packetPayloadMax] at *
    omega
  have hno : ¬ payload.length > blobLengthMax := Nat.not_lt.mpr hlen
  by_cases hsingle : payload.length + packetHeaderSize ≤ room
  · let single : Packet := ⟨if encrypted then .singleEncrypted else .single, firstSequenceNumber, payload, 0⟩
    have hf : single.Fits := by
      refine ⟨?_, (by decide : 0 < 256), (by decide : firstSequenceNumber < 256)⟩
      simp only [single]
      omega
    refine ⟨[single], ?_, ?_, carries_single hf rfl rfl⟩
    · simp [packetize, hp, hroom, hsingle, single]
    · intro p hm
      rw [List.mem_singleton.mp hm]
      exact ⟨hf, by simp only [single]; omega⟩
  · let header := BlobHeader.forPayload payload.length encrypted
    have hh : header.Fits := BlobHeader.forPayload_fits hlen
    have hlong : room - blobHeaderSize < payload.length := by
      simp only [packetHeaderSize, blobHeaderSize] at *
      omega
    have hpackets : packetize payload encrypted mtu =
        .ok (⟨.blobStart, firstSequenceNumber, header.wire ++ payload.take (room - blobHeaderSize), 0⟩ ::
          blobRest room payload.length firstSequenceNumber (payload.drop (room - blobHeaderSize))) := by
      have hb : header.toBytes = .ok header.wire := hh.toBytes
      simp only [packetize, hp, hroom, hsingle, hno, if_false, ok_bind, pure_eq_ok]
      exact congrArg (· >>= _) hb
    refine ⟨_, hpackets, ?_, carries_blob hmax hfirst hlong hh rfl (BlobHeader.forPayload_encrypted _ _)⟩
    intro p hm
    rcases List.mem_cons.mp hm with rfl | hm
    · have htake : (payload.take (room - blobHeaderSize)).length ≤ room - blobHeaderSize :=
        List.length_take_le _ _
      have hpay : (header.wire ++ payload.take (room - blobHeaderSize)).length ≤ room := by
        rw [List.length_append, BlobHeader.wire_length]
        omega
      exact ⟨⟨Nat.le_trans hpay hmax, (by decide : 0 < 256), (by decide : firstSequenceNumber < 256)⟩,
        by simp only; omega⟩
    · have hrest := blobRest_fits hmax _ _ _ p hm
      exact ⟨hrest.1, by omega⟩

end PacketStream

/-- The length field of a write says how long its payload is. -/
def LengthTruthful (write : Bytes) : Prop :=
  packetHeaderSize ≤ write.length ∧ (write.getD 1 0).toNat = write.length - packetHeaderSize

theorem Packet.Fits.lengthTruthful {p : Packet} (h : p.Fits) : LengthTruthful p.wire := by
  have hp := h.payload
  have h255 : p.payload.length < 256 := by unfold packetPayloadMax at hp; omega
  refine ⟨by rw [Packet.wire_length]; omega, ?_⟩
  rw [Packet.wire_length, Nat.add_sub_cancel_left]
  exact toNat_ofNat_of_lt h255

/-- Every payload that fits comes out of an idle receiver once, whole, from
the last write of `frame`, with every status packet handed on as it is. -/
theorem frame_receive_roundTrip (sender receiver : PacketStream) (payload : Bytes)
    (hp : payload ≠ []) (hlen : (ciphered sender.cipher payload).length ≤ blobLengthMax)
    (hidle : receiver.blob = none) (hciphers : CiphersAgree sender.cipher receiver.cipher) :
    ∃ writes, sender.frame payload = .ok writes ∧ writes ≠ [] ∧
      (∀ w ∈ writes, w.length ≤ sender.mtu - attOverhead ∧ LengthTruthful w) ∧
      ∀ feed : List Fed, feed.filterMap Fed.write? = writes → (∀ f ∈ feed, f.IsStatus) →
        ∃ receiver' : PacketStream, receiver.receiveAll (feed.map Fed.data) =
          (mergeResults feed (List.replicate (writes.length - 1) (.ok .none) ++
            [.ok (.payload ⟨delivered sender.cipher payload, sender.cipher.isSome⟩)]), receiver') ∧
          receiver'.receivingBlob = false ∧ receiver'.cipher = receiver.cipher := by
  obtain ⟨packets, hpackets, hfits, hcarries⟩ := PacketStream.packetize_carries
    sender.cipher.isSome (PacketStream.ciphered_ne_nil hciphers hp) hlen sender.mtu_ok
  obtain ⟨_, hall, -⟩ := hcarries receiver hidle _ (PacketStream.deliver_ciphered hciphers payload _)
  refine ⟨packets.map Packet.wire, ?_, ?_, ?_, ?_⟩
  · rw [PacketStream.frame_eq, hpackets, ok_bind]
    exact Packet.mapM_toBytes (fun p hm => (hfits p hm).1)
  · intro hnil
    simp [List.map_eq_nil_iff.mp hnil, PacketStream.receiveAll] at hall
  · intro w hw
    obtain ⟨p, hm, rfl⟩ := List.mem_map.mp hw
    rw [Packet.wire_length]
    exact ⟨(hfits p hm).2, (hfits p hm).1.lengthTruthful⟩
  · intro feed hwrites hstatus
    obtain ⟨receiver', hall, hblob, hcipher⟩ :=
      hcarries receiver hidle _ (PacketStream.deliver_ciphered hciphers payload _)
    refine ⟨receiver', ?_, by simp [PacketStream.receivingBlob, hblob], hcipher⟩
    rw [PacketStream.receiveAll_feed receiver hstatus, hwrites, hall, List.length_map]

theorem frame_receive_roundTrip_blob :
    ∃ writes, PacketStream.frame ⟨23, none, none, 0, by decide⟩ (List.replicate 13 7) = .ok writes ∧
      writes ≠ [] :=
  have h := frame_receive_roundTrip ⟨23, none, none, 0, by decide⟩ ⟨23, none, none, 0, by decide⟩
    (List.replicate 13 7) (by decide) (by decide) rfl trivial
  ⟨_, h.choose_spec.1, h.choose_spec.2.1⟩

end OnestiLock
