import Mathlib.Data.List.Induction
import OnestiLock.FramingRoundTrip

/-! The framing grammar, and that `receive` accepts exactly what it derives. -/

namespace OnestiLock

namespace Packet

/-- ACK, NAC and ERROR. -/
def IsStatus (p : Packet) : Prop :=
  p.packetType = .ack ∨ p.packetType = .nac ∨ p.packetType = .error

def IsSingle (p : Packet) : Prop :=
  p.packetType = .single ∨ p.packetType = .singleEncrypted

end Packet

/-- The notifications of a blob that is not complete: a BlobStart, then
BlobStreams numbered on from it, status packets aside. The chunks collected
never exceed the declared length. -/
inductive OpenRun : List Bytes → BlobHeader → Bytes → Nat → Prop
  | start {data chunk : Bytes} {packet : Packet} {header : BlobHeader}
      (parses : Packet.fromBytes data = .ok packet) (type : packet.packetType = .blobStart)
      (splits : BlobHeader.split packet.payload = .ok (header, chunk))
      (fits : chunk.length ≤ header.length) : OpenRun [data] header chunk packet.sequenceNumber
  | status {run : List Bytes} {data chunks : Bytes} {packet : Packet} {header : BlobHeader}
      {last : Nat} (rest : OpenRun run header chunks last)
      (parses : Packet.fromBytes data = .ok packet) (type : packet.IsStatus) :
      OpenRun (run ++ [data]) header chunks last
  | stream {run : List Bytes} {data chunks : Bytes} {packet : Packet} {header : BlobHeader}
      {last : Nat} (rest : OpenRun run header chunks last)
      (parses : Packet.fromBytes data = .ok packet) (type : packet.packetType = .blobStream)
      (next : packet.sequenceNumber = (last + 1) % 256)
      (fits : chunks.length + packet.payload.length ≤ header.length) :
      OpenRun (run ++ [data]) header (chunks ++ packet.payload) packet.sequenceNumber

/-- A BlobComplete that ends an open run at exactly the declared length. -/
def EndsRun (header : BlobHeader) (chunks : Bytes) (last : Nat) (data : Bytes)
    (received : ReceivedPayload) : Prop :=
  ∃ packet, Packet.fromBytes data = .ok packet ∧ packet.packetType = .blobComplete ∧
    packet.sequenceNumber = (last + 1) % 256 ∧
    chunks.length + packet.payload.length = header.length ∧
    received = ⟨chunks ++ packet.payload, header.encrypted⟩

namespace PacketStream

variable {s t : PacketStream} {data chunks : Bytes} {packet : Packet} {header : BlobHeader}
  {last : Nat}

/-- A blob is in progress. -/
def Collecting (s : PacketStream) (header : BlobHeader) (chunks : Bytes) (last : Nat) : Prop :=
  s.lastSequence = last ∧ ∃ blob, s.blob = some blob ∧ blob.header = header ∧
    blob.buffer = chunks ∧ blob.completed = false

/-- What one notification does to a stream without a cipher. -/
inductive Reads (s : PacketStream) (data : Bytes) :
    Except BleProtocolError Received × PacketStream → Prop
  | single {packet : Packet} (idle : s.blob = none) (parses : Packet.fromBytes data = .ok packet)
      (type : packet.IsSingle) :
      Reads s data (.ok (.payload ⟨packet.payload, packet.packetType == .singleEncrypted⟩), s)
  | status {packet : Packet} (parses : Packet.fromBytes data = .ok packet)
      (type : packet.IsStatus) : Reads s data (.ok (.status packet), s)
  | opens {packet : Packet} {header : BlobHeader} {chunk : Bytes} {t : PacketStream}
      (idle : s.blob = none) (parses : Packet.fromBytes data = .ok packet)
      (type : packet.packetType = .blobStart)
      (splits : BlobHeader.split packet.payload = .ok (header, chunk))
      (fits : chunk.length ≤ header.length)
      (collecting : t.Collecting header chunk packet.sequenceNumber) : Reads s data (.ok .none, t)
  | grows {packet : Packet} {header : BlobHeader} {chunks : Bytes} {last : Nat}
      {t : PacketStream} (was : s.Collecting header chunks last)
      (parses : Packet.fromBytes data = .ok packet) (type : packet.packetType = .blobStream)
      (next : packet.sequenceNumber = (last + 1) % 256)
      (fits : chunks.length + packet.payload.length ≤ header.length)
      (collecting : t.Collecting header (chunks ++ packet.payload) packet.sequenceNumber) :
      Reads s data (.ok .none, t)
  | completes {header : BlobHeader} {chunks : Bytes} {last : Nat} {received : ReceivedPayload}
      (was : s.Collecting header chunks last) (ends : EndsRun header chunks last data received) :
      Reads s data (.ok (.payload received), s.reset)
  | raises (e : BleProtocolError) : Reads s data (.error e, s.reset)

/-! A call that returned, read backwards. -/

end PacketStream

namespace BlobAssembler

theorem append_eq_ok {blob blob' : BlobAssembler} {chunk : Bytes}
    (h : blob.append chunk = .ok blob') :
    blob.buffer.length + chunk.length ≤ blob.header.length ∧ blob'.header = blob.header ∧
      blob'.buffer = blob.buffer ++ chunk ∧ blob'.completed = false := by
  by_cases hc : blob.completed = true
  · simp [append, hc] at h
  · have hopen : blob.completed = false := by simpa using hc
    by_cases hfit : blob.buffer.length + chunk.length ≤ blob.header.length
    · obtain ⟨blob₂, happ, hheader, hbuffer, hcompleted⟩ := append_ok hopen hfit
      rw [happ] at h
      cases h
      exact ⟨hfit, hheader, hbuffer, hcompleted⟩
    · simp [append, hopen, hfit] at h

theorem start_eq_ok {blob : BlobAssembler} {payload : Bytes} (h : start payload = .ok blob) :
    ∃ header chunk, BlobHeader.split payload = .ok (header, chunk) ∧
      chunk.length ≤ header.length ∧ blob.header = header ∧ blob.buffer = chunk ∧
      blob.completed = false := by
  obtain ⟨⟨header, chunk⟩, hsplit, happ⟩ := bind_eq_ok.mp h
  obtain ⟨hfit, hheader, hbuffer, hcompleted⟩ := append_eq_ok happ
  exact ⟨header, chunk, hsplit, by simpa using hfit, hheader, by simpa using hbuffer, hcompleted⟩

theorem complete_eq_ok {blob blob' : BlobAssembler} {chunk data : Bytes}
    (h : blob.complete chunk = .ok (data, blob')) :
    blob.buffer.length + chunk.length = blob.header.length ∧ data = blob.buffer ++ chunk ∧
      blob'.header = blob.header := by
  obtain ⟨blob₁, happ, hrest⟩ := bind_eq_ok.mp h
  obtain ⟨-, hheader, hbuffer, -⟩ := append_eq_ok happ
  by_cases hlen : blob₁.buffer.length = blob₁.header.length
  · simp only [hlen, ne_eq, not_true, if_false, pure_eq_ok] at hrest
    cases hrest
    refine ⟨?_, hbuffer, hheader⟩
    rw [← hheader, ← hlen, hbuffer, List.length_append]
  · simp [hlen] at hrest

end BlobAssembler

namespace PacketStream

variable {s s' : PacketStream} {data : Bytes} {packet : Packet} {received : Received}

theorem expectNoBlob_eq_ok {u : Unit} (h : s.expectNoBlob packet = .ok u) : s.blob = none := by
  by_cases hb : s.blob.isSome = true
  · simp [expectNoBlob, hb] at h
  · simpa using hb

theorem nextInBlob_eq_ok {blob : BlobAssembler} (h : s.nextInBlob packet = .ok (blob, s')) :
    s.blob = some blob ∧ packet.sequenceNumber = (s.lastSequence + 1) % 256 ∧
      s' = { s with lastSequence := packet.sequenceNumber } := by
  cases hb : s.blob with
  | none => simp [nextInBlob, hb] at h
  | some open_ =>
    by_cases hseq : packet.sequenceNumber = (s.lastSequence + 1) % 256
    · simp only [nextInBlob, hb, hseq, ne_eq, not_true, if_false, Except.ok.injEq,
        Prod.mk.injEq] at h
      refine ⟨by rw [h.1], hseq, ?_⟩
      rw [← h.2, hseq]
    · simp [nextInBlob, hb, hseq] at h

theorem deliver_plain (hcipher : s.cipher = none) (data : Bytes) (encrypted : Bool) :
    s.deliver data encrypted = .ok (.payload ⟨data, encrypted⟩) := by
  simp [deliver, hcipher]

/-- Between calls an assembler is never a completed one. -/
def Unfinished (s : PacketStream) : Prop := ∀ blob, s.blob = some blob → blob.completed = false

theorem Collecting.unfinished {header : BlobHeader} {chunks : Bytes} {last : Nat}
    (h : s.Collecting header chunks last) : s.Unfinished := by
  obtain ⟨-, blob, hblob, -, -, hopen⟩ := h
  intro other hother
  rw [hblob] at hother
  cases hother
  exact hopen

theorem single_reads (hcipher : s.cipher = none) (parses : Packet.fromBytes data = .ok packet)
    (type : packet.IsSingle) (h : s.receivePacket packet = .ok (received, s')) :
    Reads s data (.ok received, s') := by
  have hidle : s.blob = none := by
    rcases type with htype | htype <;> simp only [receivePacket, htype] at h <;>
      obtain ⟨u, hu, -⟩ := bind_eq_ok.mp h <;> exact expectNoBlob_eq_ok hu
  rw [receivePacket_single hidle type (deliver_plain hcipher _ _)] at h
  cases h
  exact .single hidle parses type

theorem status_reads (parses : Packet.fromBytes data = .ok packet) (type : packet.IsStatus)
    (h : s.receivePacket packet = .ok (received, s')) : Reads s data (.ok received, s') := by
  rw [receivePacket_status type] at h
  cases h
  exact .status parses type

theorem blobStart_reads (parses : Packet.fromBytes data = .ok packet)
    (type : packet.packetType = .blobStart) (h : s.receivePacket packet = .ok (received, s')) :
    Reads s data (.ok received, s') := by
  simp only [receivePacket, type] at h
  obtain ⟨u, hu, h⟩ := bind_eq_ok.mp h
  obtain ⟨blob, hstart, h⟩ := bind_eq_ok.mp h
  cases h
  obtain ⟨header, chunk, hsplit, hfit, hheader, hbuffer, hopen⟩ := BlobAssembler.start_eq_ok hstart
  exact .opens (expectNoBlob_eq_ok hu) parses type hsplit hfit
    ⟨rfl, blob, rfl, hheader, hbuffer, hopen⟩

theorem blobStream_reads (hopen : s.Unfinished) (parses : Packet.fromBytes data = .ok packet)
    (type : packet.packetType = .blobStream) (h : s.receivePacket packet = .ok (received, s')) :
    Reads s data (.ok received, s') := by
  simp only [receivePacket, type] at h
  obtain ⟨⟨blob, s₁⟩, hnext, h⟩ := bind_eq_ok.mp h
  obtain ⟨blob', happ, h⟩ := bind_eq_ok.mp h
  obtain ⟨hblob, hseq, rfl⟩ := nextInBlob_eq_ok hnext
  obtain ⟨hfit, hheader, hbuffer, hopen'⟩ := BlobAssembler.append_eq_ok happ
  cases h
  have was : s.Collecting blob.header blob.buffer s.lastSequence :=
    ⟨rfl, blob, hblob, rfl, rfl, hopen blob hblob⟩
  exact .grows was parses type hseq hfit ⟨rfl, blob', rfl, hheader, hbuffer, hopen'⟩

theorem blobComplete_reads (hcipher : s.cipher = none) (hopen : s.Unfinished)
    (parses : Packet.fromBytes data = .ok packet) (type : packet.packetType = .blobComplete)
    (h : s.receivePacket packet = .ok (received, s')) : Reads s data (.ok received, s') := by
  have hcall := h
  simp only [receivePacket, type] at h
  obtain ⟨⟨blob, s₁⟩, hnext, h⟩ := bind_eq_ok.mp h
  obtain ⟨⟨payload, blob'⟩, hcomplete, -⟩ := bind_eq_ok.mp h
  obtain ⟨hblob, hseq, rfl⟩ := nextInBlob_eq_ok hnext
  obtain ⟨hlen, -, -⟩ := BlobAssembler.complete_eq_ok hcomplete
  rw [receivePacket_blobComplete hblob (hopen blob hblob) type hseq hlen
    (deliver_plain hcipher _ _)] at hcall
  cases hcall
  have was : s.Collecting blob.header blob.buffer s.lastSequence :=
    ⟨rfl, blob, hblob, rfl, rfl, hopen blob hblob⟩
  exact .completes was ⟨packet, parses, type, hseq, hlen, rfl⟩

theorem receive_reads (hcipher : s.cipher = none) (hopen : s.Unfinished) (data : Bytes) :
    Reads s data (s.receive data) := by
  cases hparse : Packet.fromBytes data with
  | error e =>
    have hraise : s.receive data = (.error e, s.reset) := by simp [receive, hparse]
    rw [hraise]
    exact .raises e
  | ok packet =>
    cases hcall : s.receivePacket packet with
    | error e =>
      have hraise : s.receive data = (.error e, s.reset) := by simp [receive, hparse, hcall]
      rw [hraise]
      exact .raises e
    | ok result =>
      obtain ⟨received, s'⟩ := result
      rw [receive_eq_of_fromBytes hparse hcall]
      cases htype : packet.packetType with
      | single => exact single_reads hcipher hparse (.inl htype) hcall
      | singleEncrypted => exact single_reads hcipher hparse (.inr htype) hcall
      | blobStart => exact blobStart_reads hparse htype hcall
      | blobStream => exact blobStream_reads hopen hparse htype hcall
      | blobComplete => exact blobComplete_reads hcipher hopen hparse htype hcall
      | ack => exact status_reads hparse (.inl htype) hcall
      | nac => exact status_reads hparse (.inr (.inl htype)) hcall
      | error => exact status_reads hparse (.inr (.inr htype)) hcall

/-! Histories. -/

theorem receivePacket_reset (h : s.receivePacket packet = .ok (received, s')) :
    s'.reset = s.reset := by
  cases htype : packet.packetType with
  | single | singleEncrypted | blobStart =>
    simp only [receivePacket, htype] at h
    obtain ⟨_, -, h⟩ := bind_eq_ok.mp h
    obtain ⟨_, -, h⟩ := bind_eq_ok.mp h
    cases h
    rfl
  | blobStream =>
    simp only [receivePacket, htype] at h
    obtain ⟨_, hnext, h⟩ := bind_eq_ok.mp h
    obtain ⟨_, -, h⟩ := bind_eq_ok.mp h
    obtain ⟨-, -, hstep⟩ := nextInBlob_eq_ok hnext
    cases h
    rw [hstep]
    rfl
  | blobComplete =>
    simp only [receivePacket, htype] at h
    obtain ⟨_, hnext, h⟩ := bind_eq_ok.mp h
    obtain ⟨_, -, h⟩ := bind_eq_ok.mp h
    obtain ⟨_, -, h⟩ := bind_eq_ok.mp h
    obtain ⟨-, -, hstep⟩ := nextInBlob_eq_ok hnext
    cases h
    rw [hstep]
    rfl
  | ack | nac | error =>
    simp only [receivePacket, htype] at h
    cases h
    rfl

/-- A notification changes nothing that a reset does not forget. -/
theorem receive_reset (s : PacketStream) (data : Bytes) : (s.receive data).2.reset = s.reset := by
  cases hcall : (Packet.fromBytes data >>= s.receivePacket : Except _ _) with
  | error e => simp only [receive, hcall]; rfl
  | ok result =>
    obtain ⟨packet, -, hpacket⟩ := bind_eq_ok.mp hcall
    simp only [receive, hcall]
    exact receivePacket_reset hpacket

theorem receiveAll_reset (s : PacketStream) (history : List Bytes) :
    (s.receiveAll history).2.reset = s.reset := by
  induction history generalizing s with
  | nil => rfl
  | cons data history ih =>
    have hrest := ih (s.receive data).2
    rw [receive_reset] at hrest
    exact hrest

theorem receiveAll_cipher (s : PacketStream) (history : List Bytes) :
    (s.receiveAll history).2.cipher = s.cipher := by
  have hreset := congrArg cipher (receiveAll_reset s history)
  exact hreset

theorem receiveAll_snoc (s : PacketStream) (history : List Bytes) (data : Bytes) :
    (s.receiveAll (history ++ [data])).2 = ((s.receiveAll history).2.receive data).2 := by
  rw [receiveAll_append]
  rfl

theorem Collecting.not_idle {header : BlobHeader} {chunks : Bytes} {last : Nat}
    (h : s.Collecting header chunks last) : s.blob ≠ none := by
  obtain ⟨-, blob, hblob, -⟩ := h
  simp [hblob]

theorem Collecting.unique {header header' : BlobHeader} {chunks chunks' : Bytes} {last last' : Nat}
    (h : s.Collecting header chunks last) (h' : s.Collecting header' chunks' last') :
    header = header' ∧ chunks = chunks' ∧ last = last' := by
  obtain ⟨hlast, blob, hblob, hheader, hbuffer, -⟩ := h
  obtain ⟨hlast', blob', hblob', hheader', hbuffer', -⟩ := h'
  rw [hblob] at hblob'
  cases hblob'
  exact ⟨hheader.symm.trans hheader', hbuffer.symm.trans hbuffer', hlast.symm.trans hlast'⟩

/-- The history `past` ends in an open run that began while the stream was idle. -/
def EndsOpen (fresh : PacketStream) (past : List Bytes) (header : BlobHeader) (chunks : Bytes)
    (last : Nat) : Prop :=
  ∃ before run, past = before ++ run ∧ (fresh.receiveAll before).2.blob = none ∧
    OpenRun run header chunks last

/-- A stream after a history: idle and as new, or collecting the open run that
the history ends in. -/
inductive Follows (fresh : PacketStream) (past : List Bytes) (s : PacketStream) : Prop
  | idle (new : s = fresh)
  | amid {header : BlobHeader} {chunks : Bytes} {last : Nat}
      (run : EndsOpen fresh past header chunks last) (collecting : s.Collecting header chunks last)

section

variable {fresh : PacketStream} {past : List Bytes} {header header' : BlobHeader}
  {chunks chunks' : Bytes} {last last' : Nat}

theorem EndsOpen.snoc (h : EndsOpen fresh past header chunks last)
    (hgrow : ∀ run, OpenRun run header chunks last → OpenRun (run ++ [data]) header' chunks' last') :
    EndsOpen fresh (past ++ [data]) header' chunks' last' := by
  obtain ⟨before, run, rfl, hidle, hrun⟩ := h
  exact ⟨before, run ++ [data], List.append_assoc _ _ _, hidle, hgrow run hrun⟩

theorem Follows.reads {result : Except BleProtocolError Received} (hnew : fresh.reset = fresh)
    (hpast : (fresh.receiveAll past).2 = s) (h : Follows fresh past s)
    (hread : Reads s data (result, s')) : Follows fresh (past ++ [data]) s' := by
  have hreset : s.reset = fresh := by
    rw [← hpast, receiveAll_reset, hnew]
  have hfresh : fresh.blob = none := by
    rw [← hnew]
    rfl
  cases hread with
  | single idle parses type =>
    cases h with
    | idle new => exact .idle new
    | amid run collecting => exact absurd idle collecting.not_idle
  | status parses type =>
    cases h with
    | idle new => exact .idle new
    | amid run collecting =>
      exact .amid (run.snoc fun _ hrun => .status hrun parses type) collecting
  | opens idle parses type splits fits collecting =>
    rw [← hpast] at idle
    exact .amid ⟨past, [data], rfl, idle, .start parses type splits fits⟩ collecting
  | grows was parses type next fits collecting =>
    cases h with
    | idle new =>
      rw [new] at was
      exact absurd hfresh was.not_idle
    | amid run was' =>
      obtain ⟨rfl, rfl, rfl⟩ := was.unique was'
      exact .amid (run.snoc fun _ hrun => .stream hrun parses type next fits) collecting
  | completes was ends => exact .idle hreset
  | raises e => exact .idle hreset

theorem collects (hnew : fresh.reset = fresh) {run : List Bytes}
    (hrun : OpenRun run header chunks last) :
    (fresh.receiveAll run).2.Collecting header chunks last := by
  induction hrun with
  | @start data chunk packet header parses type splits fits =>
    have hidle : fresh.blob = none := by
      rw [← hnew]
      rfl
    obtain ⟨blob, hstep, hheader, hbuffer, hopen⟩ :=
      receivePacket_blobStart hidle type splits fits
    simp only [receiveAll, receive_eq_of_fromBytes parses hstep]
    exact ⟨rfl, blob, rfl, hheader, hbuffer, hopen⟩
  | status rest parses type ih =>
    rw [receiveAll_snoc, receive_eq_of_fromBytes parses (receivePacket_status type)]
    exact ih
  | stream rest parses type next fits ih =>
    obtain ⟨hlast, blob, hblob, rfl, rfl, hopen⟩ := ih
    rw [← hlast] at next
    obtain ⟨blob', hstep, hheader, hbuffer, hopen'⟩ :=
      receivePacket_blobStream hblob hopen type next fits
    rw [receiveAll_snoc, receive_eq_of_fromBytes parses hstep]
    exact ⟨rfl, blob', rfl, hheader, hbuffer, hopen'⟩

theorem Follows.unfinished (hnew : fresh.reset = fresh) (h : Follows fresh past s) :
    s.Unfinished := by
  cases h with
  | idle new =>
    intro blob hblob
    rw [new, ← hnew] at hblob
    exact absurd hblob (by simp [reset])
  | amid run collecting => exact collecting.unfinished

variable (hcipher : fresh.cipher = none) (hnew : fresh.reset = fresh)

include hcipher hnew

theorem follows (past : List Bytes) : Follows fresh past (fresh.receiveAll past).2 := by
  induction past using List.reverseRecOn with
  | nil => exact .idle rfl
  | append_singleton past data ih =>
    rw [receiveAll_snoc]
    have hplain : (fresh.receiveAll past).2.cipher = none := by rw [receiveAll_cipher, hcipher]
    exact ih.reads hnew rfl (receive_reads hplain (ih.unfinished hnew) data)

theorem idle_after_iff (past : List Bytes) :
    (fresh.receiveAll past).2.blob = none ↔ (fresh.receiveAll past).2 = fresh := by
  constructor
  · intro hidle
    cases follows hcipher hnew past with
    | idle new => exact new
    | amid run collecting => exact absurd hidle collecting.not_idle
  · intro h
    rw [h, ← hnew]
    rfl

theorem EndsOpen.collecting {past : List Bytes} (h : EndsOpen fresh past header chunks last) :
    (fresh.receiveAll past).2.Collecting header chunks last := by
  obtain ⟨before, run, rfl, hidle, hrun⟩ := h
  rw [receiveAll_append, (idle_after_iff hcipher hnew before).mp hidle]
  exact collects hnew hrun

theorem reads_after (past : List Bytes) (data : Bytes) :
    Reads (fresh.receiveAll past).2 data ((fresh.receiveAll past).2.receive data) := by
  have hplain : (fresh.receiveAll past).2.cipher = none := by rw [receiveAll_cipher, hcipher]
  exact receive_reads hplain ((follows hcipher hnew past).unfinished hnew) data

theorem EndsOpen.of_collecting {past : List Bytes}
    (h : (fresh.receiveAll past).2.Collecting header chunks last) :
    EndsOpen fresh past header chunks last := by
  cases follows hcipher hnew past with
  | idle new =>
    have hidle := (idle_after_iff hcipher hnew past).mpr new
    exact absurd hidle h.not_idle
  | amid run collecting =>
    obtain ⟨rfl, rfl, rfl⟩ := h.unique collecting
    exact run

theorem receives_payload_iff (past : List Bytes) (data : Bytes) (received : ReceivedPayload) :
    ((fresh.receiveAll past).2.receive data).1 = .ok (.payload received) ↔
      ((fresh.receiveAll past).2.blob = none ∧ ∃ packet, Packet.fromBytes data = .ok packet ∧
        packet.IsSingle ∧
        received = ⟨packet.payload, packet.packetType == .singleEncrypted⟩) ∨
      ∃ header chunks last, EndsOpen fresh past header chunks last ∧
        EndsRun header chunks last data received := by
  have hplain : (fresh.receiveAll past).2.cipher = none := by rw [receiveAll_cipher, hcipher]
  constructor
  · intro hcall
    have hread := reads_after hcipher hnew past data
    generalize hresult : (fresh.receiveAll past).2.receive data = result at hread hcall
    cases hread with
    | single idle parses type =>
      cases hcall
      exact .inl ⟨idle, _, parses, type, rfl⟩
    | completes was ends =>
      cases hcall
      exact .inr ⟨_, _, _, EndsOpen.of_collecting hcipher hnew was, ends⟩
    | status | opens | grows | raises => cases hcall
  · rintro (⟨hidle, packet, hparse, htype, rfl⟩ | ⟨header, chunks, last, hends, hcomplete⟩)
    · have hstep := receivePacket_single hidle htype (deliver_plain hplain _ _)
      rw [receive_eq_of_fromBytes hparse hstep]
    · obtain ⟨packet, hparse, htype, hseq, hlen, rfl⟩ := hcomplete
      obtain ⟨hlast, blob, hblob, rfl, rfl, hopen⟩ := hends.collecting hcipher hnew
      rw [← hlast] at hseq
      have hstep := receivePacket_blobComplete hblob hopen htype hseq hlen (deliver_plain hplain _ _)
      rw [receive_eq_of_fromBytes hparse hstep]

theorem receives_status_iff (past : List Bytes) (data : Bytes) (packet : Packet) :
    ((fresh.receiveAll past).2.receive data).1 = .ok (.status packet) ↔
      Packet.fromBytes data = .ok packet ∧ packet.IsStatus := by
  constructor
  · intro hcall
    have hread := reads_after hcipher hnew past data
    generalize hresult : (fresh.receiveAll past).2.receive data = result at hread hcall
    cases hread with
    | status parses type =>
      cases hcall
      exact ⟨parses, type⟩
    | single | completes | opens | grows | raises => cases hcall
  · rintro ⟨hparse, htype⟩
    rw [receive_eq_of_fromBytes hparse (receivePacket_status htype)]

theorem receives_none_iff (past : List Bytes) (data : Bytes) :
    ((fresh.receiveAll past).2.receive data).1 = .ok .none ↔
      (∃ header chunks last, EndsOpen fresh (past ++ [data]) header chunks last) ∧
        ¬ ∃ packet, Packet.fromBytes data = .ok packet ∧ packet.IsStatus := by
  constructor
  · intro hcall
    have hread := reads_after hcipher hnew past data
    have hstatus : ¬ ∃ packet, Packet.fromBytes data = .ok packet ∧ packet.IsStatus := by
      rintro ⟨packet, hpacket⟩
      have hreturned := (receives_status_iff hcipher hnew past data packet).mpr hpacket
      rw [hcall] at hreturned
      cases hreturned
    refine ⟨?_, hstatus⟩
    generalize hresult : (fresh.receiveAll past).2.receive data = result at hread hcall
    cases hread with
    | opens idle parses type splits fits collecting =>
      exact ⟨_, _, _, past, [data], rfl, idle, .start parses type splits fits⟩
    | grows was parses type next fits collecting =>
      have hends := EndsOpen.of_collecting hcipher hnew was
      exact ⟨_, _, _, hends.snoc fun _ hrun => .stream hrun parses type next fits⟩
    | single | completes | status | raises => cases hcall
  · rintro ⟨⟨header, chunks, last, before, run, hpast, hidle, hrun⟩, hstatus⟩
    cases hrun with
    | start parses type splits fits =>
      obtain ⟨rfl, hdata⟩ := List.append_inj' hpast rfl
      cases hdata
      obtain ⟨blob, hstep, -⟩ := receivePacket_blobStart hidle type splits fits
      rw [receive_eq_of_fromBytes parses hstep]
    | status rest parses type =>
      rw [← List.append_assoc] at hpast
      obtain ⟨-, hdata⟩ := List.append_inj' hpast rfl
      cases hdata
      exact absurd ⟨_, parses, type⟩ hstatus
    | stream rest parses type next fits =>
      rw [← List.append_assoc] at hpast
      obtain ⟨rfl, hdata⟩ := List.append_inj' hpast rfl
      cases hdata
      have hends : EndsOpen fresh (before ++ _) _ _ _ := ⟨before, _, rfl, hidle, rest⟩
      obtain ⟨hlast, blob, hblob, rfl, rfl, hopen⟩ := hends.collecting hcipher hnew
      rw [← hlast] at next
      obtain ⟨blob', hstep, -⟩ := receivePacket_blobStream hblob hopen type next fits
      rw [receive_eq_of_fromBytes parses hstep]

theorem raises_fresh (past : List Bytes) (data : Bytes) (e : BleProtocolError)
    (hcall : ((fresh.receiveAll past).2.receive data).1 = .error e) :
    ((fresh.receiveAll past).2.receive data).2 = fresh := by
  have hread := reads_after hcipher hnew past data
  generalize hresult : (fresh.receiveAll past).2.receive data = result at hread hcall
  cases hread with
  | raises _ => rw [receiveAll_reset, hnew]
  | single | completes | status | opens | grows => cases hcall

end

end PacketStream

/-- `receive` accepts exactly the framing grammar. A payload comes from a
Single while idle or from the BlobComplete of an open run; status packets are
handed on and change nothing; a call returns `None` exactly for a step of an
open run; and after any error the stream is as new. -/
theorem receive_accepts_grammar {mtu : Nat} {fresh : PacketStream}
    (hfresh : PacketStream.new mtu none = .ok fresh) (past : List Bytes) (data : Bytes) :
    let stream := (fresh.receiveAll past).2
    (∀ received, (stream.receive data).1 = .ok (.payload received) ↔
      (stream.receivingBlob = false ∧ ∃ packet, Packet.fromBytes data = .ok packet ∧
        packet.IsSingle ∧
        received = ⟨packet.payload, packet.packetType == .singleEncrypted⟩) ∨
      ∃ header chunks last, PacketStream.EndsOpen fresh past header chunks last ∧
        EndsRun header chunks last data received) ∧
    (∀ packet, (stream.receive data).1 = .ok (.status packet) ↔
      Packet.fromBytes data = .ok packet ∧ packet.IsStatus) ∧
    (∀ packet, Packet.fromBytes data = .ok packet → packet.IsStatus →
      (stream.receive data).2 = stream) ∧
    ((stream.receive data).1 = .ok .none ↔
      (∃ header chunks last, PacketStream.EndsOpen fresh (past ++ [data]) header chunks last) ∧
        ¬ ∃ packet, Packet.fromBytes data = .ok packet ∧ packet.IsStatus) ∧
    (∀ e, (stream.receive data).1 = .error e → (stream.receive data).2 = fresh ∧
      fresh.receivingBlob = false) := by
  intro stream
  obtain ⟨hcipher, hnew⟩ : fresh.cipher = none ∧ fresh.reset = fresh := by
    unfold PacketStream.new at hfresh
    split at hfresh
    · cases hfresh
      exact ⟨rfl, rfl⟩
    · cases hfresh
  have hidle : fresh.receivingBlob = false := by
    rw [← hnew]
    rfl
  refine ⟨?_, ?_, ?_, ?_, ?_⟩
  · intro received
    have hiff := PacketStream.receives_payload_iff hcipher hnew past data received
    simpa [PacketStream.receivingBlob] using hiff
  · exact PacketStream.receives_status_iff hcipher hnew past data
  · intro packet hparse htype
    rw [PacketStream.receive_eq_of_fromBytes hparse (PacketStream.receivePacket_status htype)]
  · exact PacketStream.receives_none_iff hcipher hnew past data
  · intro e hcall
    exact ⟨PacketStream.raises_fresh hcipher hnew past data e hcall, hidle⟩

/-- A BlobStart of three bytes, an ACK, and the BlobComplete that ends the blob. -/
theorem receive_accepts_grammar_blob :
    ((PacketStream.receiveAll ⟨23, none, none, 0, by decide⟩
      [[3, 6, 0, 1, 1, 3, 0, 0, 8, 9], [6, 0, 0, 0]]).2.receive [5, 1, 0, 2, 7]).1 =
      .ok (.payload ⟨[8, 9, 7], true⟩) := by
  have hnew : PacketStream.new 23 none = .ok ⟨23, none, none, 0, by decide⟩ := rfl
  have hstart : Packet.fromBytes [3, 6, 0, 1, 1, 3, 0, 0, 8, 9] =
      .ok ⟨.blobStart, 1, [1, 3, 0, 0, 8, 9], 0⟩ := rfl
  have hsplit : BlobHeader.split [1, 3, 0, 0, 8, 9] = .ok (⟨3, 1, 0⟩, [8, 9]) := rfl
  have hack : Packet.fromBytes [6, 0, 0, 0] = .ok ⟨.ack, 0, [], 0⟩ := rfl
  have hcomplete : EndsRun ⟨3, 1, 0⟩ [8, 9] 1 [5, 1, 0, 2, 7] ⟨[8, 9, 7], true⟩ :=
    ⟨⟨.blobComplete, 2, [7], 0⟩, rfl, rfl, rfl, rfl, rfl⟩
  have hopen : OpenRun [[3, 6, 0, 1, 1, 3, 0, 0, 8, 9]] ⟨3, 1, 0⟩ [8, 9] 1 :=
    .start hstart rfl hsplit (by decide)
  have hrun := hopen.status hack (.inl rfl)
  obtain ⟨hpayload, -⟩ := receive_accepts_grammar hnew
    [[3, 6, 0, 1, 1, 3, 0, 0, 8, 9], [6, 0, 0, 0]] [5, 1, 0, 2, 7]
  exact (hpayload ⟨[8, 9, 7], true⟩).mpr (.inr ⟨_, _, _, ⟨[], _, rfl, rfl, hrun⟩, hcomplete⟩)

end OnestiLock
