import OnestiLock.CipherModes
import OnestiLock.Command
import OnestiLock.FramingRecovery

/-! The protocol stack from end to end: a command or a response serialized on
one side parses as itself on the other. -/

namespace OnestiLock

/-! From one side to the other. -/

/-- `value`, written by `toBytes`, is framed by the sender and comes out of the
receiver once, from the last write, as bytes that parse as `value` again. -/
def Crosses {α : Type} (sender receiver : PacketStream) (toBytes : Except BleValidationError Bytes)
    (fromBytes : Bytes → Except BleProtocolError α) (value : α) : Prop :=
  ∃ raw writes received, toBytes = .ok raw ∧ sender.frame raw = .ok writes ∧
    (receiver.receiveAll writes).1 =
      List.replicate (writes.length - 1) (.ok .none) ++ [.ok (.payload received)] ∧
    fromBytes received.data = .ok value

section

variable {prim : Primitives} {cipher : Option Aes128Cbc} {sender receiver : PacketStream}

theorem ciphersAgree (hinverse : prim.BlockInverse)
    (hsender : sender.cipher = cipher.map (Aes128Cbc.payloadCipher prim))
    (hreceiver : receiver.cipher = cipher.map (Aes128Cbc.payloadCipher prim)) :
    CiphersAgree sender.cipher receiver.cipher := by
  rw [hsender, hreceiver]
  cases cipher with
  | none => trivial
  | some aes => exact aes.cipherPair hinverse

theorem ciphered_length (hsender : sender.cipher = cipher.map (Aes128Cbc.payloadCipher prim))
    (raw : Bytes) : (ciphered sender.cipher raw).length < raw.length + aesBlockSize := by
  rw [hsender]
  cases cipher with
  | none =>
    simp only [Option.map_none, ciphered, aesBlockSize]
    omega
  | some aes =>
    have hlen : (aes.encrypt prim raw).length = (zeroPad raw).length :=
      aes.run_encrypt_length (zeroPad_length_mod raw)
    simp only [Option.map_some, ciphered, Aes128Cbc.payloadCipher, hlen, zeroPad,
      List.length_append, List.length_replicate, aesBlockSize]
    omega

theorem delivered_eq_append (cipher : Option PayloadCipher) (raw : Bytes) :
    ∃ padding, delivered cipher raw = raw ++ padding := by
  cases cipher with
  | none => exact ⟨[], (List.append_nil raw).symm⟩
  | some _ => exact ⟨_, rfl⟩

/-- What a parser accepts with any padding after it crosses the stack. -/
theorem crosses {α : Type} {toBytes : Except BleValidationError Bytes}
    {fromBytes : Bytes → Except BleProtocolError α} {value : α} {raw : Bytes}
    (hinverse : prim.BlockInverse)
    (hsender : sender.cipher = cipher.map (Aes128Cbc.payloadCipher prim))
    (hreceiver : receiver.cipher = cipher.map (Aes128Cbc.payloadCipher prim))
    (hidle : receiver.receivingBlob = false) (hraw : toBytes = .ok raw) (hne : raw ≠ [])
    (hlen : raw.length ≤ packetHeaderSize + packetPayloadMax)
    (hparse : ∀ tail, fromBytes (raw ++ tail) = .ok value) :
    Crosses sender receiver toBytes fromBytes value := by
  have hciphers := ciphersAgree hinverse hsender hreceiver
  have hlong := ciphered_length hsender raw
  have hmax : (ciphered sender.cipher raw).length ≤ blobLengthMax := by
    simp only [packetHeaderSize, packetPayloadMax, aesBlockSize, blobLengthMax] at *
    omega
  have hblob : receiver.blob = none := by simpa [PacketStream.receivingBlob] using hidle
  obtain ⟨packets, hpackets, hfits, hcarries⟩ := PacketStream.packetize_carries
    sender.cipher.isSome (PacketStream.ciphered_ne_nil hciphers hne) hmax sender.mtu_ok
  obtain ⟨receiver', hall, -⟩ :=
    hcarries receiver hblob _ (PacketStream.deliver_ciphered hciphers raw _)
  obtain ⟨padding, hpadding⟩ := delivered_eq_append sender.cipher raw
  refine ⟨raw, packets.map Packet.wire, ⟨delivered sender.cipher raw, sender.cipher.isSome⟩, hraw,
    ?_, ?_, ?_⟩
  · rw [PacketStream.frame_eq, hpackets, ok_bind]
    exact Packet.mapM_toBytes (fun p hp => (hfits p hp).1)
  · rw [hall, List.length_map]
  · rw [hpadding]
    exact hparse padding

end

/-- Every command comes out of the stack as it went in, and every response of
the lock likewise, in the clear or under one AES cipher on both sides. -/
theorem stack_roundTrip (prim : Primitives) (hinverse : prim.BlockInverse)
    (cipher : Option Aes128Cbc) (sender receiver : PacketStream)
    (hsender : sender.cipher = cipher.map (Aes128Cbc.payloadCipher prim))
    (hreceiver : receiver.cipher = cipher.map (Aes128Cbc.payloadCipher prim))
    (hidle : receiver.receivingBlob = false) :
    (∀ (payload : CommandPayload) (ref : Nat), payload.data.length ≤ 255 → 1 ≤ ref → ref ≤ 254 →
      Crosses sender receiver (payload.withRef ref).toBytes Command.fromBytes
        (payload.withRef ref)) ∧
    ∀ response : Response, response.responseId < 256 → response.commandRef < 256 →
      response.status < 256 → response.payload.length ≤ 255 →
      Crosses sender receiver response.toBytes Response.fromBytes response := by
  constructor
  · intro payload ref hdata hmin hmax
    have hfits : (payload.withRef ref).Fits := ⟨hmin, hmax, (by decide : 0 < 256), hdata⟩
    refine crosses hinverse hsender hreceiver hidle hfits.toBytes (List.cons_ne_nil _ _) ?_
      hfits.fromBytes_wire
    rw [Command.wire_length]
    exact Nat.add_le_add_left hfits.payload _
  · intro response hid href hstatus hpayload
    have hfits : response.Fits := ⟨hid, href, hstatus, hpayload⟩
    refine crosses hinverse hsender hreceiver hidle hfits.toBytes (List.cons_ne_nil _ _) ?_
      hfits.fromBytes_wire
    rw [Response.wire_length]
    exact Nat.add_le_add_left hfits.payload _

/-- AES-128 on its published example. -/
def Primitives.aesExample : Primitives :=
  .knownBlock [0, 1, 2, 3, 4, 5, 6, 7, 8, 9, 10, 11, 12, 13, 14, 15]
    [0x00, 0x11, 0x22, 0x33, 0x44, 0x55, 0x66, 0x77, 0x88, 0x99, 0xAA, 0xBB, 0xCC, 0xDD, 0xEE, 0xFF]
    [0x69, 0xC4, 0xE0, 0xD8, 0x6A, 0x7B, 0x04, 0x30, 0xD8, 0xCD, 0xB7, 0x80, 0x70, 0xB4, 0xC5, 0x5A]
    rfl rfl

/-- BattInfoGet under the example's key, with the IV that makes its padded
block the example's plaintext. -/
theorem stack_roundTrip_example :
    ∃ aes : Aes128Cbc, ∃ stream : PacketStream,
      stream.cipher = some (aes.payloadCipher Primitives.aesExample) ∧
      stream.frame [0x5D, 0, 1, 0] = .ok [[3, 16, 0, 1, 1, 16, 0, 0, 0x69, 0xC4, 0xE0, 0xD8, 0x6A,
        0x7B, 0x04, 0x30, 0xD8, 0xCD, 0xB7, 0x80], [5, 4, 0, 2, 0x70, 0xB4, 0xC5, 0x5A]] ∧
      Crosses stream stream (CommandPayload.withRef ⟨.battInfoGet, []⟩ 1).toBytes Command.fromBytes
        (CommandPayload.withRef ⟨.battInfoGet, []⟩ 1) := by
  let aes : Aes128Cbc := ⟨[0, 1, 2, 3, 4, 5, 6, 7, 8, 9, 10, 11, 12, 13, 14, 15],
    [0x5D, 0x11, 0x23, 0x33, 0x44, 0x55, 0x66, 0x77, 0x88, 0x99, 0xAA, 0xBB, 0xCC, 0xDD, 0xEE, 0xFF],
    false, rfl, rfl⟩
  let stream : PacketStream :=
    ⟨23, some (aes.payloadCipher Primitives.aesExample), none, 0, by decide⟩
  obtain ⟨hcommand, -⟩ := stack_roundTrip Primitives.aesExample
    (Primitives.knownBlock_inverse rfl rfl) (some aes) stream stream rfl rfl rfl
  refine ⟨aes, stream, rfl, by decide +kernel, ?_⟩
  exact hcommand ⟨.battInfoGet, []⟩ 1 (by decide) (by decide) (by decide)

end OnestiLock
