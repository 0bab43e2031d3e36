import OnestiLock.FramingGrammar

/-! A receiver left in the middle of a blob recovers with the next payload. -/

namespace OnestiLock

namespace Packet

/-- The packets a payload can begin with, and those that only continue a blob. -/
def IsFirst (p : Packet) : Prop := p.IsSingle ∨ p.packetType = .blobStart

def IsContinuation (p : Packet) : Prop :=
  p.packetType = .blobStream ∨ p.packetType = .blobComplete

end Packet

theorem blobRest_continuation (room fuel sequence : Nat) (rest : Bytes) :
    ∀ p ∈ blobRest room fuel sequence rest, p.IsContinuation := by
  induction fuel generalizing sequence rest with
  | zero => simp [blobRest]
  | succ fuel ih =>
    intro p hp
    by_cases hr : rest = []
    · simp [blobRest, hr] at hp
    · simp only [blobRest, hr, if_false, List.mem_cons] at hp
      rcases hp with rfl | hp
      · by_cases hlast : rest.drop room = []
        · exact .inr (by simp [hlast])
        · exact .inl (by simp [hlast])
      · exact ih _ _ p hp

theorem packetize_eq_ok {payload : Bytes} {encrypted : Bool} {mtu : Nat} {packets : List Packet}
    (h : packetize payload encrypted mtu = .ok packets) :
    payload.length ≤ blobLengthMax ∧ ∃ first rest, packets = first :: rest ∧ first.IsFirst ∧
      ∀ p ∈ rest, p.IsContinuation := by
  by_cases hp : payload = []
  · simp [packetize, hp] at h
  simp only [packetize, hp, if_false] at h
  obtain ⟨room, hroom, h⟩ := bind_eq_ok.mp h
  have hmax : room ≤ packetPayloadMax := by
    by_cases hmtu : mtu < mtuMin
    · simp [packetRoom, hmtu] at hroom
    · simp only [packetRoom, hmtu, if_false] at hroom
      cases hroom
      exact Nat.min_le_right _ _
  by_cases hsingle : payload.length + packetHeaderSize ≤ room
  · simp only [hsingle, if_true, pure_eq_ok] at h
    cases h
    have hshort : payload.length ≤ blobLengthMax := by
      unfold packetPayloadMax at hmax
      unfold blobLengthMax
      omega
    refine ⟨hshort, _, [], rfl, .inl ?_, by simp⟩
    cases encrypted
    · exact .inl rfl
    · exact .inr rfl
  · by_cases hlong : payload.length > blobLengthMax
    · simp [hsingle, hlong] at h
    · simp only [hsingle, hlong, if_false] at h
      obtain ⟨header, -, h⟩ := bind_eq_ok.mp h
      cases h
      exact ⟨Nat.not_lt.mp hlong, _, _, rfl, .inr rfl, blobRest_continuation _ _ _ _⟩

/-- The payloads among the results of some calls of `receive`. -/
def payloads (results : List (Except BleProtocolError Received)) : List ReceivedPayload :=
  results.filterMap fun
    | .ok (.payload received) => some received
    | _ => none

theorem payloads_append (xs ys : List (Except BleProtocolError Received)) :
    payloads (xs ++ ys) = payloads xs ++ payloads ys :=
  List.filterMap_append

theorem payloads_replicate_none (n : Nat) :
    payloads (List.replicate n (.ok .none)) = [] := by
  induction n with
  | zero => rfl
  | succ n ih =>
    rw [List.replicate_succ]
    exact ih

namespace PacketStream

variable {s : PacketStream} {packet : Packet}

theorem receive_first_amid (hamid : s.blob ≠ none) (hfits : packet.Fits) (hfirst : packet.IsFirst) :
    ∃ e, s.receive packet.wire = (.error e, s.reset) := by
  have hsome : s.blob.isSome = true := Option.isSome_iff_ne_none.mpr hamid
  have hparse := hfits.fromBytes_wire []
  rw [List.append_nil] at hparse
  refine ⟨⟨s!"{packet.packetType.name} packet arrived in the middle of a blob"⟩, ?_⟩
  rcases hfirst with (htype | htype) | htype <;>
    simp [receive, hparse, receivePacket, htype, expectNoBlob, hsome]

theorem receive_continuation_idle (hidle : s.blob = none) (hfits : packet.Fits)
    (hcont : packet.IsContinuation) : ∃ e, s.receive packet.wire = (.error e, s.reset) := by
  have hparse := hfits.fromBytes_wire []
  rw [List.append_nil] at hparse
  refine ⟨⟨s!"{packet.packetType.name} packet arrived with no blob started"⟩, ?_⟩
  rcases hcont with htype | htype <;>
    simp [receive, hparse, receivePacket, htype, nextInBlob, hidle]

/-- The rest of a payload whose first packet was refused: each packet of it is
refused in turn, and the stream stays idle. -/
theorem receiveAll_continuation_idle {packets : List Packet} (hidle : s.blob = none)
    (h : ∀ p ∈ packets, p.Fits ∧ p.IsContinuation) :
    payloads (s.receiveAll (packets.map Packet.wire)).1 = [] ∧
      (s.receiveAll (packets.map Packet.wire)).2.blob = none := by
  induction packets generalizing s with
  | nil => exact ⟨rfl, hidle⟩
  | cons packet packets ih =>
    obtain ⟨hfits, hcont⟩ := h packet (by simp)
    obtain ⟨e, hstep⟩ := receive_continuation_idle hidle hfits hcont
    have hreset : s.reset.blob = none := rfl
    have hrest := ih hreset (fun p hp => h p (by simp [hp]))
    simp only [List.map_cons, receiveAll, hstep]
    exact hrest

/-- The writes of one payload, by a sender whose cipher belongs with the receiver's. -/
theorem receiveAll_frame {sender receiver : PacketStream} {payload : Bytes} {writes : List Bytes}
    (hciphers : CiphersAgree sender.cipher receiver.cipher) (hp : payload ≠ [])
    (hframe : sender.frame payload = .ok writes) :
    payloads (receiver.receiveAll writes).1 =
        (if receiver.receivingBlob then []
        else [⟨delivered sender.cipher payload, sender.cipher.isSome⟩]) ∧
      (receiver.receiveAll writes).2.receivingBlob = false := by
  rw [frame_eq] at hframe
  obtain ⟨packets, hpackets, hwrites⟩ := bind_eq_ok.mp hframe
  obtain ⟨hlen, first, rest, rfl, hfirst, hrest⟩ := packetize_eq_ok hpackets
  obtain ⟨packets', hpackets', hfits, hcarries⟩ := packetize_carries sender.cipher.isSome
    (ciphered_ne_nil hciphers hp) hlen sender.mtu_ok
  rw [hpackets] at hpackets'
  cases hpackets'
  rw [Packet.mapM_toBytes (fun p hm => (hfits p hm).1)] at hwrites
  cases hwrites
  cases hblob : receiver.blob with
  | none =>
    obtain ⟨receiver', hall, hidle, -⟩ :=
      hcarries receiver hblob _ (deliver_ciphered hciphers payload _)
    rw [hall, payloads_append, payloads_replicate_none]
    simp [payloads, receivingBlob, hblob, hidle]
  | some blob =>
    have hamid : receiver.blob ≠ none := by simp [hblob]
    obtain ⟨e, hstep⟩ := receive_first_amid hamid (hfits first (by simp)).1 hfirst
    have hreset : receiver.reset.blob = none := rfl
    have hlater : ∀ p ∈ rest, p.Fits ∧ p.IsContinuation :=
      fun p hp => ⟨(hfits p (by simp [hp])).1, hrest p hp⟩
    obtain ⟨hnone, hidle⟩ := receiveAll_continuation_idle hreset hlater
    simp only [List.map_cons, receiveAll, hstep]
    refine ⟨?_, by simp [receivingBlob, hidle]⟩
    simpa [payloads, receivingBlob, hblob] using hnone

end PacketStream

/-- Whatever arrived before, the payload after the next is delivered whole and
alone; the next one exactly when the stream was idle. -/
theorem reassembly_recovers {mtu : Nat} {cipher : Option PayloadCipher}
    {fresh sender : PacketStream} (hfresh : PacketStream.new mtu cipher = .ok fresh)
    (hciphers : CiphersAgree sender.cipher cipher) (history : List Bytes) {first second : Bytes}
    (hfirst : first ≠ []) (hsecond : second ≠ []) {writes₁ writes₂ : List Bytes}
    (hwrites₁ : sender.frame first = .ok writes₁) (hwrites₂ : sender.frame second = .ok writes₂) :
    let before := (fresh.receiveAll history).2
    let (results₁, between) := before.receiveAll writes₁
    let (results₂, after) := between.receiveAll writes₂
    between.receivingBlob = false ∧ after.receivingBlob = false ∧
      payloads results₂ = [⟨delivered sender.cipher second, sender.cipher.isSome⟩] ∧
      payloads results₁ = (if before.receivingBlob then []
        else [⟨delivered sender.cipher first, sender.cipher.isSome⟩]) := by
  intro before
  have hcipher : before.cipher = cipher := by
    rw [PacketStream.receiveAll_cipher]
    unfold PacketStream.new at hfresh
    split at hfresh
    · cases hfresh
      rfl
    · cases hfresh
  have hbefore : CiphersAgree sender.cipher before.cipher := by rwa [hcipher]
  have hbetween : CiphersAgree sender.cipher (before.receiveAll writes₁).2.cipher := by
    rwa [PacketStream.receiveAll_cipher]
  obtain ⟨hdelivered₁, hidle⟩ := PacketStream.receiveAll_frame hbefore hfirst hwrites₁
  obtain ⟨hdelivered₂, hafter⟩ := PacketStream.receiveAll_frame hbetween hsecond hwrites₂
  rw [hidle] at hdelivered₂
  exact ⟨hidle, hafter, hdelivered₂, hdelivered₁⟩

/-- From the middle of a blob a payload of its own blob is lost, and the next arrives. -/
theorem reassembly_recovers_amid :
    ∃ writes, PacketStream.frame ⟨23, none, none, 0, by decide⟩ (List.replicate 13 7) = .ok writes ∧
      let before := (PacketStream.receiveAll ⟨23, none, none, 0, by decide⟩
        [[3, 6, 0, 1, 1, 3, 0, 0, 8, 9]]).2
      before.receivingBlob = true ∧ (before.receiveAll writes).2.receivingBlob = false := by
  have hnew : PacketStream.new 23 none = .ok ⟨23, none, none, 0, by decide⟩ := rfl
  have hfirst : PacketStream.frame ⟨23, none, none, 0, by decide⟩ (List.replicate 13 7) =
      .ok [[3, 16, 0, 1, 0, 13, 0, 0] ++ List.replicate 12 7, [5, 1, 0, 2, 7]] := by decide +kernel
  have hsecond : PacketStream.frame ⟨23, none, none, 0, by decide⟩ [9] = .ok [[1, 1, 0, 1, 9]] := by
    decide +kernel
  have hciphers : CiphersAgree none none := trivial
  have hrecovers := reassembly_recovers hnew hciphers [[3, 6, 0, 1, 1, 3, 0, 0, 8, 9]]
    (by decide : List.replicate 13 (7 : UInt8) ≠ []) (by decide : ([9] : Bytes) ≠ []) hfirst hsecond
  exact ⟨_, hfirst, rfl, hrecovers.1⟩

end OnestiLock
