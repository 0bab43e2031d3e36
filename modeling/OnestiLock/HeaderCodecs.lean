import OnestiLock.Command
import OnestiLock.Packet
import OnestiLock.PrefixCode

/-! The headers of the three layers are exact inverses: what a reader accepts
is what the writer wrote, and nothing shorter is accepted. -/

namespace OnestiLock

theorem readUInt8_eq_ok {reader rest : Bytes} {value : Nat} :
    readUInt8 reader = .ok (value, rest) ↔ reader = UInt8.ofNat value :: rest ∧ value < 256 := by
  constructor
  · intro h
    have hlt := readUInt8_lt h
    cases reader with
    | nil => cases h
    | cons b reader =>
      rw [readUInt8_cons] at h
      obtain ⟨rfl, rfl⟩ := Prod.mk.inj (Except.ok.inj h)
      exact ⟨by simp, hlt⟩
  · intro h
    rw [h.1, readUInt8_cons, toNat_ofNat_of_lt h.2]

theorem readUInt16_eq_ok {reader rest : Bytes} {value : Nat} :
    readUInt16 reader = .ok (value, rest) ↔
      reader = toLittleEndian value 2 ++ rest ∧ value < 65536 := by
  constructor
  · intro h
    simp only [readUInt16, bind_eq_ok] at h
    obtain ⟨⟨raw, tail⟩, htake, h⟩ := h
    obtain ⟨rfl, rfl⟩ := Prod.mk.inj (Except.ok.inj h)
    have hraw := take_eq_ok.mp htake
    have hlt := ofLittleEndian_lt raw
    have hback := toLittleEndian_ofLittleEndian raw
    rw [hraw.2] at hlt hback
    exact ⟨by rw [hback, hraw.1], hlt⟩
  · intro h
    rw [h.1, readUInt16_append h.2]

theorem PacketTypeId.value_of_ofValue? {raw : Nat} {t : PacketTypeId} (h : ofValue? raw = some t) :
    t.value = raw := by
  have hp := List.find?_some h
  exact eq_of_beq hp

theorem CommandId.value_of_ofValue? {raw : Nat} {c : CommandId} (h : ofValue? raw = some c) :
    c.value = raw := by
  have hp := List.find?_some h
  exact eq_of_beq hp

theorem header_eq {id length third fourth : Nat} {data r1 r2 r3 r4 payload rest : Bytes}
    (hid : readUInt8 data = .ok (id, r1)) (hlength : readUInt8 r1 = .ok (length, r2))
    (hthird : readUInt8 r2 = .ok (third, r3)) (hfourth : readUInt8 r3 = .ok (fourth, r4))
    (hpayload : readBytes length r4 = .ok (payload, rest)) :
    data = UInt8.ofNat id :: UInt8.ofNat payload.length :: UInt8.ofNat third :: UInt8.ofNat fourth ::
        (payload ++ rest) ∧
      third < 256 ∧ fourth < 256 ∧ payload.length ≤ packetPayloadMax := by
  have hi := readUInt8_eq_ok.mp hid
  have hl := readUInt8_eq_ok.mp hlength
  have ht := readUInt8_eq_ok.mp hthird
  have hf := readUInt8_eq_ok.mp hfourth
  have hp := take_eq_ok.mp hpayload
  have hmax : payload.length ≤ packetPayloadMax := by
    rw [hp.2]
    exact Nat.le_of_lt_succ hl.2
  have hdata : data = UInt8.ofNat id :: UInt8.ofNat payload.length :: UInt8.ofNat third ::
      UInt8.ofNat fourth :: (payload ++ rest) := by
    rw [hi.1, hl.1, ht.1, hf.1, hp.1, hp.2]
  exact ⟨hdata, ht.2, hf.2, hmax⟩

/-! Packets. -/

theorem Packet.fromBytes_eq_ok {data : Bytes} {p : Packet} :
    Packet.fromBytes data = .ok p ↔ p.Fits ∧ p.wire <+: data := by
  constructor
  · intro h
    by_cases hshort : data.length < packetHeaderSize
    · simp [Packet.fromBytes, hshort] at h
    · simp only [Packet.fromBytes, hshort, if_false] at h
      obtain ⟨⟨rawType, r1⟩, htype, h⟩ := bind_eq_ok.mp h
      cases hof : PacketTypeId.ofValue? rawType with
      | none => simp [hof] at h
      | some packetType =>
        simp only [hof] at h
        obtain ⟨⟨length, r2⟩, hlength, h⟩ := bind_eq_ok.mp h
        obtain ⟨⟨rfu, r3⟩, hrfu, h⟩ := bind_eq_ok.mp h
        obtain ⟨⟨sequence, r4⟩, hsequence, h⟩ := bind_eq_ok.mp h
        obtain ⟨⟨payload, r5⟩, hpayload, h⟩ := bind_eq_ok.mp h
        cases h
        have hh := header_eq htype hlength hrfu hsequence hpayload
        have hvalue := PacketTypeId.value_of_ofValue? hof
        refine ⟨⟨hh.2.2.2, hh.2.1, hh.2.2.1⟩, r5, ?_⟩
        rw [hh.1, ← hvalue]
        rfl
  · intro h
    obtain ⟨tail, rfl⟩ := h.2
    exact h.1.fromBytes_wire tail

def packetCode : PrefixCode UInt8 Packet BleProtocolError :=
  ⟨Packet.wire, Packet.fromBytes, Packet.Fits, Packet.fromBytes_eq_ok⟩

/-! Commands. The reader takes any reference byte, the writer only 1 to 254. -/

structure Command.Readable (c : Command) : Prop where
  ref : c.commandRef < 256
  rfu : c.rfu < 256
  payload : c.payload.length ≤ packetPayloadMax

theorem Command.Fits.readable {c : Command} (h : c.Fits) : c.Readable := by
  have hmax := h.refMax
  have href : c.commandRef < 256 := by
    unfold commandRefMax at hmax
    omega
  exact ⟨href, h.rfu, h.payload⟩

theorem Command.Readable.fits {c : Command} (h : c.Readable) (hzero : c.commandRef ≠ 0)
    (hlast : c.commandRef ≠ 255) : c.Fits := by
  have href := h.ref
  have hmin : commandRefMin ≤ c.commandRef := by
    unfold commandRefMin
    omega
  have hmax : c.commandRef ≤ commandRefMax := by
    unfold commandRefMax
    omega
  exact ⟨hmin, hmax, h.rfu, h.payload⟩

theorem Command.Readable.fromBytes_wire {c : Command} (h : c.Readable) (tail : Bytes) :
    Command.fromBytes (c.wire ++ tail) = .ok c := by
  have hlen : c.payload.length < 256 := Nat.lt_succ_of_le h.payload
  have hshort : ¬ (c.wire ++ tail).length < commandHeaderSize := by
    rw [List.length_append, Command.wire_length]
    omega
  unfold Command.fromBytes
  rw [if_neg hshort]
  simp only [Command.wire, List.cons_append, pure_eq_ok, ok_bind, readUInt8_cons,
    toNat_ofNat_of_lt c.commandId.value_lt, CommandId.ofValue?_value, toNat_ofNat_of_lt hlen,
    toNat_ofNat_of_lt h.ref, toNat_ofNat_of_lt h.rfu, readBytes_append]

theorem Command.fromBytes_eq_ok {data : Bytes} {c : Command} :
    Command.fromBytes data = .ok c ↔ c.Readable ∧ c.wire <+: data := by
  constructor
  · intro h
    by_cases hshort : data.length < commandHeaderSize
    · simp [Command.fromBytes, hshort] at h
    · simp only [Command.fromBytes, hshort, if_false] at h
      obtain ⟨⟨rawId, r1⟩, hid, h⟩ := bind_eq_ok.mp h
      cases hof : CommandId.ofValue? rawId with
      | none => simp [hof] at h
      | some commandId =>
        simp only [hof] at h
        obtain ⟨⟨length, r2⟩, hlength, h⟩ := bind_eq_ok.mp h
        obtain ⟨⟨commandRef, r3⟩, href, h⟩ := bind_eq_ok.mp h
        obtain ⟨⟨rfu, r4⟩, hrfu, h⟩ := bind_eq_ok.mp h
        obtain ⟨⟨payload, r5⟩, hpayload, h⟩ := bind_eq_ok.mp h
        cases h
        have hh := header_eq hid hlength href hrfu hpayload
        have hvalue := CommandId.value_of_ofValue? hof
        refine ⟨⟨hh.2.1, hh.2.2.1, hh.2.2.2⟩, r5, ?_⟩
        rw [hh.1, ← hvalue]
        rfl
  · intro h
    obtain ⟨tail, rfl⟩ := h.2
    exact h.1.fromBytes_wire tail

def commandCode : PrefixCode UInt8 Command BleProtocolError :=
  ⟨Command.wire, Command.fromBytes, Command.Readable, Command.fromBytes_eq_ok⟩

theorem Command.toBytes_refuses {c : Command} (h : c.commandRef = 0 ∨ c.commandRef = 255) :
    c.toBytes = .error ⟨s!"CommandRef {c.commandRef} is outside {commandRefMin}-{commandRefMax}"⟩ := by
  have hrange : c.commandRef < commandRefMin ∨ commandRefMax < c.commandRef := by
    unfold commandRefMin commandRefMax
    omega
  simp only [Command.toBytes, hrange, if_true, throw_eq_error, error_bind]

/-! Responses. -/

theorem Response.fromBytes_eq_ok {data : Bytes} {r : Response} :
    Response.fromBytes data = .ok r ↔ r.Fits ∧ r.wire <+: data := by
  constructor
  · intro h
    have hfits := Response.fits_of_fromBytes h
    by_cases hshort : data.length < responseHeaderSize
    · simp [Response.fromBytes, hshort] at h
    · simp only [Response.fromBytes, hshort, if_false] at h
      obtain ⟨⟨responseId, r1⟩, hid, h⟩ := bind_eq_ok.mp h
      obtain ⟨⟨length, r2⟩, hlength, h⟩ := bind_eq_ok.mp h
      obtain ⟨⟨commandRef, r3⟩, href, h⟩ := bind_eq_ok.mp h
      obtain ⟨⟨status, r4⟩, hstatus, h⟩ := bind_eq_ok.mp h
      obtain ⟨⟨payload, r5⟩, hpayload, h⟩ := bind_eq_ok.mp h
      cases h
      have hh := header_eq hid hlength href hstatus hpayload
      refine ⟨hfits, r5, ?_⟩
      rw [hh.1]
      rfl
  · intro h
    obtain ⟨tail, rfl⟩ := h.2
    exact h.1.fromBytes_wire tail

def responseCode : PrefixCode UInt8 Response BleProtocolError :=
  ⟨Response.wire, Response.fromBytes, Response.Fits, Response.fromBytes_eq_ok⟩

/-! The header of a blob, which is read together with its first chunk. -/

theorem BlobHeader.split_eq_ok {data chunk : Bytes} {h : BlobHeader} :
    BlobHeader.split data = .ok (h, chunk) ↔ h.Fits ∧ data = h.wire ++ chunk := by
  constructor
  · intro hok
    by_cases hshort : data.length < blobHeaderSize
    · simp [BlobHeader.split, hshort] at hok
    · simp only [BlobHeader.split, hshort, if_false] at hok
      obtain ⟨⟨flags, r1⟩, hflags, hok⟩ := bind_eq_ok.mp hok
      obtain ⟨⟨length, r2⟩, hlength, hok⟩ := bind_eq_ok.mp hok
      obtain ⟨⟨rfu, r3⟩, hrfu, hok⟩ := bind_eq_ok.mp hok
      cases hok
      have hf := readUInt8_eq_ok.mp hflags
      have hl : r1 = toLittleEndian length 2 ++ r2 ∧ length < 65536 := readUInt16_eq_ok.mp hlength
      have hr : r2 = UInt8.ofNat rfu :: r3 ∧ rfu < 256 := readUInt8_eq_ok.mp hrfu
      have hmax : length ≤ blobLengthMax := Nat.le_of_lt_succ hl.2
      refine ⟨⟨hmax, hf.2, hr.2⟩, ?_⟩
      rw [hf.1, hl.1, hr.1]
      simp [BlobHeader.wire]
  · intro hok
    rw [hok.2]
    exact hok.1.split_wire chunk

def blobHeaderCode : PrefixCode UInt8 BlobHeader BleProtocolError where
  write := BlobHeader.wire
  read := fun data => (BlobHeader.split data).map Prod.fst
  Valid := BlobHeader.Fits
  read_eq_ok := by
    intro data h
    constructor
    · intro hok
      cases hsplit : BlobHeader.split data with
      | error e => rw [hsplit] at hok; cases hok
      | ok result =>
        obtain ⟨header, chunk⟩ := result
        rw [hsplit] at hok
        cases hok
        have hdata := BlobHeader.split_eq_ok.mp hsplit
        exact ⟨hdata.1, chunk, hdata.2.symm⟩
    · intro hok
      obtain ⟨chunk, hchunk⟩ := hok.2
      have hsplit := BlobHeader.split_eq_ok.mpr ⟨hok.1, hchunk.symm⟩
      rw [hsplit]
      rfl

/-- What the writer and the reader of one header promise each other: `extra`
are the values that are read but not written. -/
structure ExactInverse {α : Type} (fits extra : α → Prop) (toBytes : α → Except BleValidationError Bytes)
    (fromBytes : Bytes → Except BleProtocolError α) : Prop where
  written : ∀ x, fits x → ∃ wire, toBytes x = .ok wire ∧
    (∀ tail, fromBytes (wire ++ tail) = .ok x) ∧
    ∀ p, p <+: wire → p ≠ wire → ∃ e, fromBytes p = .error e
  accepted : ∀ b x, fromBytes b = .ok x →
    fits x ∧ (∃ wire, toBytes x = .ok wire ∧ wire <+: b) ∨ extra x ∧ ∃ e, toBytes x = .error e

theorem exactInverse_of_code {α : Type} (c : PrefixCode UInt8 α BleProtocolError)
    {fits extra : α → Prop} {toBytes : α → Except BleValidationError Bytes}
    (hvalid : ∀ x, fits x → c.Valid x) (hwrite : ∀ x, fits x → toBytes x = .ok (c.write x))
    (hrest : ∀ x, c.Valid x → fits x ∨ extra x ∧ ∃ e, toBytes x = .error e) :
    ExactInverse fits extra toBytes c.read where
  written := by
    intro x hx
    have hv := hvalid x hx
    exact ⟨c.write x, hwrite x hx, c.read_write hv, fun p hp hne => c.strict_prefix_refused hv hp hne⟩
  accepted := by
    intro b x hread
    have hx := c.read_eq_ok.mp hread
    cases hrest x hx.1 with
    | inl hfits => exact Or.inl ⟨hfits, c.write x, hwrite x hfits, hx.2⟩
    | inr hextra => exact Or.inr hextra

/-- A reference that the reader takes and the writer refuses. -/
def Command.Unsendable (c : Command) : Prop := c.commandRef = 0 ∨ c.commandRef = 255

/-- Reading undoes writing and writing undoes reading for every header, except that
a command under reference 0 or 255 is read and never written. -/
theorem headers_exactInverse :
    ExactInverse Packet.Fits (fun _ => False) Packet.toBytes Packet.fromBytes ∧
    ExactInverse Command.Fits Command.Unsendable Command.toBytes Command.fromBytes ∧
    (∀ c : Command, c.Readable → c.Unsendable →
      (∀ tail, Command.fromBytes (c.wire ++ tail) = .ok c) ∧ ∃ e, c.toBytes = .error e) ∧
    ExactInverse Response.Fits (fun _ => False) Response.toBytes Response.fromBytes ∧
    ExactInverse BlobHeader.Fits (fun _ => False) BlobHeader.toBytes
      (fun data => (BlobHeader.split data).map Prod.fst) ∧
    ∀ data h chunk, BlobHeader.split data = .ok (h, chunk) ↔
      h.Fits ∧ ∃ wire, h.toBytes = .ok wire ∧ data = wire ++ chunk := by
  have hcommand : ∀ c : Command, c.Readable → c.Fits ∨ c.Unsendable ∧ ∃ e, c.toBytes = .error e := by
    intro c hc
    by_cases hu : c.Unsendable
    · exact Or.inr ⟨hu, _, Command.toBytes_refuses hu⟩
    · have hzero : c.commandRef ≠ 0 := fun h => hu (Or.inl h)
      have hlast : c.commandRef ≠ 255 := fun h => hu (Or.inr h)
      exact Or.inl (hc.fits hzero hlast)
  have hblob : ∀ data h chunk, BlobHeader.split data = .ok (h, chunk) ↔
      h.Fits ∧ ∃ wire, h.toBytes = .ok wire ∧ data = wire ++ chunk := by
    intro data h chunk
    constructor
    · intro hok
      have hh := BlobHeader.split_eq_ok.mp hok
      exact ⟨hh.1, h.wire, hh.1.toBytes, hh.2⟩
    · intro hok
      obtain ⟨hfits, wire, hwire, hdata⟩ := hok
      have heq : wire = h.wire := Except.ok.inj (hwire.symm.trans hfits.toBytes)
      exact BlobHeader.split_eq_ok.mpr ⟨hfits, heq ▸ hdata⟩
  exact ⟨exactInverse_of_code packetCode (fun _ h => h) (fun _ h => h.toBytes) (fun _ h => Or.inl h),
    exactInverse_of_code commandCode (fun _ h => h.readable) (fun _ h => h.toBytes) hcommand,
    fun c hc hu => ⟨hc.fromBytes_wire, _, Command.toBytes_refuses hu⟩,
    exactInverse_of_code responseCode (fun _ h => h) (fun _ h => h.toBytes) (fun _ h => Or.inl h),
    exactInverse_of_code blobHeaderCode (fun _ h => h) (fun _ h => h.toBytes) (fun _ h => Or.inl h),
    hblob⟩

end OnestiLock
