import OnestiLock.FakeLockRules
import OnestiLock.LockSlots

/-! Requests over the wire keep the book of credentials. -/

namespace OnestiLock

/-! The wire. -/

theorem request_arrives {call : BuilderCall} {ref : Nat} (href : 1 ≤ ref ∧ ref < 128)
    (padding : Bytes) (hwire : call.wire.length ≤ packetPayloadMax) :
    ((⟨call.commandId, call.wire⟩ : CommandPayload).withRef ref).toBytes =
        .ok (Command.wire ⟨call.commandId, ref, call.wire, 0⟩) ∧
      Command.fromBytes (Command.wire ⟨call.commandId, ref, call.wire, 0⟩ ++ padding) =
        .ok ⟨call.commandId, ref, call.wire, 0⟩ := by
  have hfits : (⟨call.commandId, ref, call.wire, 0⟩ : Command).Fits := by
    refine ⟨href.1, ?_, Nat.zero_lt_succ 255, hwire⟩
    exact Nat.le_of_lt (Nat.lt_trans href.2 (by decide))
  exact ⟨hfits.toBytes, hfits.fromBytes_wire padding⟩

theorem crossed_eq {r : Response} (h : r.Fits) (padding : Bytes) : crossed padding r = .ok r := by
  rw [crossed, h.toBytes, validated_ok, ok_bind, h.fromBytes_wire padding, parsed_ok]

theorem answer_fits {received : Command} (href : received.commandRef < 128) {status : Nat} (hstatus : status < 256)
    {payload : Bytes} (hpayload : payload.length ≤ packetPayloadMax) : (answer received status payload).Fits :=
  ⟨received.commandId.value_lt, by simp only [answer]; omega, hstatus, hpayload⟩

/-- Answers are crossed and parsed one by one. -/
theorem hearing_single {command : CommandId} {r : Response} (h : r.Fits) (padding : Bytes) :
    ([r].mapM (crossed padding) >>= hearing command) = .ok ⟨[], parseAnswer command r⟩ := by
  simp [crossed_eq h, hearing]

theorem hearing_event {command : CommandId} {event r : Response} {e : LockEvent} (hfits : event.Fits) (h : r.Fits)
    (hevent : parseEvent event = .ok (some e)) (padding : Bytes) :
    ([event, r].mapM (crossed padding) >>= hearing command) = .ok ⟨[e], parseAnswer command r⟩ := by
  simp [crossed_eq hfits, crossed_eq h, hearing, hevent]

/-! The answers. -/

theorem parseAnswer_failed {received : Command} {status : Nat} (hstatus : status ≠ statusSuccess)
    (hknown : received.commandId ∈ payloadCommands ∨ received.commandId ∈ statusOnlyResponses) (payload : Bytes) :
    parseAnswer received.commandId (answer received status payload) =
      .error (.operation status received.commandId.value) := by
  cases hparse : parseAnswer received.commandId (answer received status payload) with
  | ok a =>
    have hok := (parseAnswer_eq_ok.mp hparse).1
    exact absurd hok.2 hstatus
  | error e =>
    rcases parseAnswer_refusal hparse with (⟨-, -, rfl⟩ | ⟨hid | hok, -⟩) | ⟨hno, hno'⟩
    · rfl
    · exact absurd rfl hid
    · exact absurd hok hstatus
    · rcases hknown with hknown | hknown
      · exact absurd hknown hno
      · exact absurd hknown hno'

theorem parseAnswer_done {received : Command} (h : received.commandId ∈ statusOnlyResponses) :
    parseAnswer received.commandId (answer received statusSuccess []) = .ok .done :=
  parseAnswer_eq_ok.mpr ⟨⟨rfl, rfl⟩, [], .done h, List.nil_prefix⟩

/-! Slots on the wire. -/

theorem slotWire_toNat {slot : Int} (h : BuilderCall.FitsField slot 2) :
    slot.toNat < 65536 ∧ ∀ rest, readUInt16 (BuilderCall.slotWire slot ++ rest) = .ok (slot.toNat, rest) := by
  have hlt : slot.toNat < 65536 := by
    unfold BuilderCall.FitsField at h
    omega
  exact ⟨hlt, fun rest => readUInt16_append hlt rest⟩

theorem readUInt16_slotWire {slot : Int} (h : BuilderCall.FitsField slot 2) :
    readUInt16 (BuilderCall.slotWire slot) = .ok (slot.toNat, []) := by
  have hread := (slotWire_toNat h).2 []
  rwa [List.append_nil] at hread

theorem length_encodeAscii (text : String) : (encodeAscii text).length = text.length := by
  rw [encodeAscii, List.length_map, String.length_toList]

theorem decodedAscii_encodeAscii {text : String} (h : isAscii text = true) :
    decodedAscii (encodeAscii text) = .ok text := by
  have hbytes : (encodeAscii text).all (fun b => decide (b.toNat < 128)) = true := by
    rw [List.all_eq_true]
    intro b hb
    obtain ⟨c, hc, rfl⟩ := List.mem_map.mp hb
    have hlt : c.toNat < 128 := of_decide_eq_true (List.all_eq_true.mp h c hc)
    rw [toNat_ofNat_of_lt (by omega)]
    exact decide_eq_true hlt
  rw [decodedAscii, if_pos hbytes, decodeText_encodeAscii h, String.ofList_toList]

theorem scanned_eq {received : Command} {slot : Nat} (hslot : slot < 65536) {added : Nat} (hadded : added < 256) :
    LockSlots.scanned received slot added =
      .ok [⟨responseUserAdded, eventCommandRef, 0, toLittleEndian slot 2 ++ [UInt8.ofNat added]⟩,
        answer received statusSuccess (toLittleEndian slot 2 ++ [0])] := by
  have hzero : writeUInt8 (toLittleEndian slot 2) ((0 : Nat) : Int) = .ok (toLittleEndian slot 2 ++ [0]) :=
    writeUInt8_ok (by decide)
  have hevent : writeUInt8 (toLittleEndian slot 2) (added : Int) =
      .ok (toLittleEndian slot 2 ++ [UInt8.ofNat added]) := writeUInt8_ok hadded
  simp only [LockSlots.scanned, writeUInt16_ok hslot, List.nil_append, validated_ok, ok_bind, hevent, pure_eq_ok]
  rw [show (0 : Int) = ((0 : Nat) : Int) from rfl, hzero]
  rfl

/-! One request. -/

/-- A lock that holds no empty PIN. -/
def LockSlots.Legible (slots : LockSlots) : Prop := ∀ slot, slots.pins slot ≠ some ""

theorem slotRequest_eq {call : BuilderCall} (h : call.Acceptable) (hwire : call.wire.length ≤ packetPayloadMax)
    {ref : Nat} (href : 1 ≤ ref ∧ ref < 128) {authenticated : Bool} {padding : Bytes} {slots slots' : LockSlots}
    {responses : List Response} {heard : Heard}
    (hhandle : slots.handle ⟨call.commandId, ref, call.wire, 0⟩ authenticated = .ok (slots', responses))
    (hheard : (responses.mapM (crossed padding) >>= hearing call.commandId) = .ok heard) :
    slotRequest authenticated padding slots call ref = .ok (slots', heard) := by
  have hbuilt : call.build = .ok ⟨call.commandId, call.wire⟩ := BuilderCall.build_eq_ok.mpr ⟨h, rfl⟩
  obtain ⟨hbytes, hback⟩ := request_arrives href padding hwire
  simp only [slotRequest, hbuilt, validated_ok, ok_bind, hbytes, hback, parsed_ok, hhandle]
  obtain ⟨crossings, hcrossed, hheard⟩ := bind_eq_ok.mp hheard
  simp only [hcrossed, ok_bind, hheard, pure_eq_ok]

/-! The book after a table changed. -/

theorem book_pins (slots : LockSlots) (slot : Nat) (content : Option String) :
    ({ slots with pins := Function.update slots.pins slot content } : LockSlots).book =
      slots.book.write .pin slot content := by
  funext kind
  cases kind <;> simp [LockSlots.book, SlotBook.write, Function.update_of_ne]

/-- A credential that is scanned, and kept in a table of its own. -/
inductive Scanned
  | fingerprint | rfid

namespace Scanned

def kind : Scanned → CredentialKind
  | fingerprint => .fingerprint
  | rfid => .rfid

def scan : Scanned → CommandId
  | fingerprint => .fingerprintScan
  | rfid => .scanRfidCode

def clear : Scanned → CommandId
  | fingerprint => .fingerprintClear
  | rfid => .rfidCodeClear

def added : Scanned → Nat
  | fingerprint => addedFingerprint
  | rfid => addedRfidCode

def table (slots : LockSlots) : Scanned → Finset Nat
  | fingerprint => slots.fingerprints
  | rfid => slots.rfids

def withTable (slots : LockSlots) (table : Finset Nat) : Scanned → LockSlots
  | fingerprint => { slots with fingerprints := table }
  | rfid => { slots with rfids := table }

theorem book_kind (k : Scanned) (slots : LockSlots) :
    slots.book k.kind = fun s => if s ∈ k.table slots then some "" else none := by
  cases k <;> rfl

theorem book_withTable (k : Scanned) (slots : LockSlots) {table : Finset Nat} {slot : Nat} {content : Option String}
    (h : ∀ s, (if s ∈ table then some "" else none) =
      Function.update (fun s => if s ∈ k.table slots then some "" else none) slot content s) :
    (k.withTable slots table).book = slots.book.write k.kind slot content := by
  funext kind s
  cases k with
  | fingerprint =>
    have hs : (if s ∈ table then some "" else none) = Function.update (slots.book .fingerprint) slot content s := h s
    show ({ slots with fingerprints := table } : LockSlots).book kind s = slots.book.write .fingerprint slot content kind s
    cases kind with
    | fingerprint => simpa [LockSlots.book, SlotBook.write] using hs
    | _ => simp [LockSlots.book, SlotBook.write, Function.update_of_ne]
  | rfid =>
    have hs : (if s ∈ table then some "" else none) = Function.update (slots.book .rfid) slot content s := h s
    show ({ slots with rfids := table } : LockSlots).book kind s = slots.book.write .rfid slot content kind s
    cases kind with
    | rfid => simpa [LockSlots.book, SlotBook.write] using hs
    | _ => simp [LockSlots.book, SlotBook.write, Function.update_of_ne]

theorem legible_withTable (k : Scanned) {slots : LockSlots} (h : slots.Legible) (table : Finset Nat) :
    (k.withTable slots table).Legible := by
  cases k <;> exact h

/-- The two scans differ in the table and in what the listeners are told. -/
theorem handle_scan (k : Scanned) (slots : LockSlots) (ref : Nat) (payload : Bytes) :
    slots.handle ⟨k.scan, ref, payload, 0⟩ true = (do
      let (slot, _) ← parsed (readUInt16 payload)
      return (k.withTable slots (insert slot (k.table slots)),
        ← LockSlots.scanned ⟨k.scan, ref, payload, 0⟩ slot k.added)) := by
  cases k <;> rfl

theorem handle_clear (k : Scanned) (slots : LockSlots) (ref : Nat) (payload : Bytes) :
    slots.handle ⟨k.clear, ref, payload, 0⟩ true = (do
      let (slot, _) ← parsed (readUInt16 payload)
      return (k.withTable slots ((k.table slots).erase slot),
        [answer ⟨k.clear, ref, payload, 0⟩ (LockSlots.clearStatus (k.table slots) slot) []])) := by
  cases k <;> rfl

end Scanned

theorem insert_content (table : Finset Nat) (slot s : Nat) :
    (if s ∈ insert slot table then some "" else none) =
      Function.update (fun s => if s ∈ table then some "" else none) slot (some "") s := by
  by_cases hs : s = slot
  · subst hs
    simp
  · simp [hs]

theorem erase_content (table : Finset Nat) (slot s : Nat) :
    (if s ∈ table.erase slot then some "" else none) =
      Function.update (fun s => if s ∈ table then some "" else none) slot none s := by
  by_cases hs : s = slot
  · subst hs
    simp
  · simp [hs]

/-! What the lock does with each command. -/

/-- The lock takes the command as the request, and answers its outcome. -/
def Serves (padding : Bytes) (slots : LockSlots) (received : Command) (authenticated : Bool)
    (request : SlotRequest) : Prop :=
  ∃ slots' responses, slots.handle received authenticated = .ok (slots', responses) ∧
    (responses.mapM (crossed padding) >>= hearing received.commandId) =
      .ok ((slots.book.apply authenticated request).2.heard received.commandId) ∧
    slots'.book = (slots.book.apply authenticated request).1 ∧ slots'.Legible

section

variable {padding : Bytes} {slots : LockSlots} {ref : Nat} {slot : Int}

theorem serves_refused {received : Command} (href : received.commandRef < 128)
    (hknown : received.commandId ∈ payloadCommands ∨ received.commandId ∈ statusOnlyResponses)
    (hlegible : slots.Legible) (request : SlotRequest) : Serves padding slots received false request := by
  have hfits : (answer received statusSecurityError []).Fits := answer_fits href (by decide) (by decide)
  refine ⟨slots, [answer received statusSecurityError []], rfl, ?_, rfl, hlegible⟩
  rw [hearing_single hfits, parseAnswer_failed (by decide) hknown]
  rfl

/-- A status alone is done, or that nothing was there. -/
theorem status_heard {received : Command} (href : received.commandRef < 128)
    (hmem : received.commandId ∈ statusOnlyResponses) (found : Bool) :
    ([answer received (if found then statusSuccess else statusNotFoundError) []].mapM (crossed padding) >>=
      hearing received.commandId) =
      .ok ((if found then SlotOutcome.done else .notFound).heard received.commandId) := by
  have hstatus : (if found then statusSuccess else statusNotFoundError) < 256 := by cases found <;> decide
  rw [hearing_single (answer_fits href hstatus (by decide))]
  cases found with
  | true => exact congrArg (fun a => Except.ok (Heard.mk [] a)) (parseAnswer_done hmem)
  | false => exact congrArg (fun a => Except.ok (Heard.mk [] a)) (parseAnswer_failed (by decide) (.inr hmem) [])

theorem serves_pinCodeSet {pin : String} (hslot : BuilderCall.FitsField slot 2) (hpin : BuilderCall.IsPin pin)
    (href : ref < 128) (hlegible : slots.Legible) :
    Serves padding slots ⟨.pinCodeSet, ref, BuilderCall.pinWire slot pin, 0⟩ true (.setPin slot.toNat pin) := by
  have hascii := isAscii_of_isPin hpin
  have hlength : pin.length < 256 := Nat.lt_of_le_of_lt hpin.1.2 (by decide)
  have hraw : readBytes pin.length (encodeAscii pin) = .ok (encodeAscii pin, []) :=
    readBytes_all (length_encodeAscii pin)
  have hslotRead := (slotWire_toNat hslot).2
  refine ⟨{ slots with pins := Function.update slots.pins slot.toNat (some pin) },
    [answer ⟨.pinCodeSet, ref, BuilderCall.pinWire slot pin, 0⟩ statusSuccess []], ?_, ?_, ?_, ?_⟩
  · simp only [LockSlots.handle, Bool.true_eq_false, if_false, LockSlots.onPinCodeSet, BuilderCall.pinWire, hslotRead,
      parsed_ok, ok_bind, readUInt8_cons, toNat_ofNat_of_lt hlength, hraw, decodedAscii_encodeAscii hascii, pure_eq_ok]
  · have hmem : CommandId.pinCodeSet ∈ statusOnlyResponses := by decide
    exact status_heard href hmem true
  · exact book_pins slots slot.toNat (some pin)
  · intro s
    by_cases hs : s = slot.toNat
    · subst hs
      have hmin : 4 ≤ pin.length := hpin.1.1
      simp only [Function.update_self, ne_eq, Option.some.injEq]
      rintro rfl
      simp at hmin
    · simp only [Function.update_of_ne hs]
      exact hlegible s

theorem serves_pinCodeClear (hslot : BuilderCall.FitsField slot 2) (href : ref < 128) (hlegible : slots.Legible) :
    Serves padding slots ⟨.pinCodeClear, ref, BuilderCall.slotWire slot, 0⟩ true (.clear .pin slot.toNat) := by
  have hread := readUInt16_slotWire hslot
  have hfound : (slots.pins slot.toNat).any (fun pin => pin != "") = (slots.book .pin slot.toNat).isSome := by
    show _ = (slots.pins slot.toNat).isSome
    cases hpin : slots.pins slot.toNat with
    | none => rfl
    | some pin =>
      have hne : pin ≠ "" := fun heq => hlegible slot.toNat (heq ▸ hpin)
      simpa using hne
  refine ⟨{ slots with pins := Function.update slots.pins slot.toNat none },
    [answer ⟨.pinCodeClear, ref, BuilderCall.slotWire slot, 0⟩
      (if (slots.book .pin slot.toNat).isSome then statusSuccess else statusNotFoundError) []], ?_, ?_, ?_, ?_⟩
  · simp only [LockSlots.handle, Bool.true_eq_false, if_false, LockSlots.onPinCodeClear, hread, parsed_ok, ok_bind,
      pure_eq_ok, hfound]
  · have hmem : CommandId.pinCodeClear ∈ statusOnlyResponses := by decide
    exact status_heard href hmem _
  · exact book_pins slots slot.toNat none
  · intro s
    by_cases hs : s = slot.toNat
    · subst hs
      simp
    · simp only [Function.update_of_ne hs]
      exact hlegible s

/-- A scan is told to the listeners and answered. -/
theorem scan_heard (padding : Bytes) (k : Scanned) {n : Nat} (href : ref < 128) (hn : n < 65536) (payload : Bytes) :
    ([⟨responseUserAdded, eventCommandRef, 0, toLittleEndian n 2 ++ [UInt8.ofNat k.added]⟩,
      answer ⟨k.scan, ref, payload, 0⟩ statusSuccess (toLittleEndian n 2 ++ [0])].mapM (crossed padding) >>=
        hearing k.scan) = .ok ⟨[.userAdded n k.added], .ok (.scanResult ⟨n, .known 0⟩)⟩ := by
  have hlength : ∀ b : UInt8, (toLittleEndian n 2 ++ [b]).length ≤ packetPayloadMax := by
    intro b
    rw [List.length_append, length_toLittleEndian]
    exact (by decide : 2 + 1 ≤ packetPayloadMax)
  have hadded : k.added ∈ [0, 1, 2, 3, 4] := by cases k <;> decide
  have hevent : parseEvent ⟨responseUserAdded, eventCommandRef, 0, toLittleEndian n 2 ++ [UInt8.ofNat k.added]⟩ =
      .ok (some (.userAdded n k.added)) :=
    parseEvent_eq_some.mpr ⟨rfl, rfl, _, .userAdded hn hadded, List.prefix_rfl⟩
  have hfits : (⟨responseUserAdded, eventCommandRef, 0, toLittleEndian n 2 ++ [UInt8.ofNat k.added]⟩ : Response).Fits := by
    refine ⟨?_, ?_, ?_, hlength _⟩
    · exact (by decide : responseUserAdded < 256)
    · exact (by decide : eventCommandRef < 256)
    · exact Nat.zero_lt_succ 255
  have hanswer : parseAnswer k.scan (answer ⟨k.scan, ref, payload, 0⟩ statusSuccess (toLittleEndian n 2 ++ [0])) =
      .ok (.scanResult ⟨n, .known 0⟩) := by
    have hzero : 0 < 256 := by decide
    refine parseAnswer_eq_ok.mpr ⟨⟨rfl, rfl⟩, toLittleEndian n 2 ++ toLittleEndian 0 1, ?_, List.prefix_rfl⟩
    cases k with
    | fingerprint => exact AnswerForm.fingerprintScan hn hzero
    | rfid => exact AnswerForm.scanRfidCode hn hzero
  have hstatus : statusSuccess < 256 := by decide
  have hreceived : (⟨k.scan, ref, payload, 0⟩ : Command).commandRef < 128 := href
  rw [hearing_event hfits (answer_fits hreceived hstatus (hlength 0)) hevent, hanswer]

theorem serves_scan (k : Scanned) (hslot : BuilderCall.FitsField slot 2) (href : ref < 128)
    (hlegible : slots.Legible) :
    Serves padding slots ⟨k.scan, ref, BuilderCall.slotWire slot, 0⟩ true (.scan k.kind slot.toNat) := by
  have hread : parsed (readUInt16 (BuilderCall.slotWire slot)) = .ok (slot.toNat, []) := by
    rw [readUInt16_slotWire hslot, parsed_ok]
  have hlt := (slotWire_toNat hslot).1
  have hadded : k.added < 256 := by cases k <;> decide
  have hscanned := @scanned_eq ⟨k.scan, ref, BuilderCall.slotWire slot, 0⟩ slot.toNat hlt k.added hadded
  have hheard := scan_heard padding k href hlt (BuilderCall.slotWire slot)
  have hout : (slots.book.apply true (.scan k.kind slot.toNat)).2.heard k.scan =
      ⟨[.userAdded slot.toNat k.added], .ok (.scanResult ⟨slot.toNat, .known 0⟩)⟩ := by
    cases k <;> rfl
  refine ⟨k.withTable slots (insert slot.toNat (k.table slots)), _, ?_, hheard.trans (congrArg _ hout.symm), ?_,
    k.legible_withTable hlegible _⟩
  · rw [k.handle_scan]
    exact bind_eq_ok.mpr ⟨_, hread, bind_eq_ok.mpr ⟨_, hscanned, rfl⟩⟩
  · exact k.book_withTable slots (insert_content (k.table slots) slot.toNat)

/-- A table has the slot if and only if the book has something there. -/
theorem clearStatus_eq (table : Finset Nat) (n : Nat) : LockSlots.clearStatus table n =
    if (if n ∈ table then some "" else none : Option String).isSome then statusSuccess else statusNotFoundError := by
  by_cases h : n ∈ table <;> simp [LockSlots.clearStatus, h]

theorem serves_clear (k : Scanned) (hslot : BuilderCall.FitsField slot 2) (href : ref < 128)
    (hlegible : slots.Legible) :
    Serves padding slots ⟨k.clear, ref, BuilderCall.slotWire slot, 0⟩ true (.clear k.kind slot.toNat) := by
  have hread := readUInt16_slotWire hslot
  have hmem : k.clear ∈ statusOnlyResponses := by cases k <;> decide
  have hstatus : LockSlots.clearStatus (k.table slots) slot.toNat =
      if (slots.book k.kind slot.toNat).isSome then statusSuccess else statusNotFoundError := by
    rw [clearStatus_eq, k.book_kind]
  refine ⟨k.withTable slots ((k.table slots).erase slot.toNat),
    [answer ⟨k.clear, ref, BuilderCall.slotWire slot, 0⟩
      (if (slots.book k.kind slot.toNat).isSome then statusSuccess else statusNotFoundError) []], ?_,
    status_heard href hmem _, ?_, k.legible_withTable hlegible _⟩
  · rw [k.handle_clear, hread, parsed_ok, ok_bind, ← hstatus]
    rfl
  · exact k.book_withTable slots (erase_content (k.table slots) slot.toNat)

end

/-- A call about a slot that its builder takes, and the CommandRef it goes out
under: the counter's, or the static one. -/
structure SlotCall where
  call : BuilderCall
  ref : Nat
  request : SlotRequest
  asks : call.slotRequest? = some request
  acceptable : call.Acceptable
  ref_bounds : 1 ≤ ref ∧ ref < 128

namespace SlotCall

variable (authenticated : Bool) (padding : Bytes) {slots : LockSlots}

theorem known (c : SlotCall) : c.call.commandId ∈ payloadCommands ∨ c.call.commandId ∈ statusOnlyResponses := by
  obtain ⟨call, ref, request, hasks, hok, href⟩ := c
  cases call <;> first | cases hasks; done | simp [BuilderCall.commandId, payloadCommands, statusOnlyResponses]

theorem pinWire_length {pin : String} (hpin : BuilderCall.IsPin pin) (slot : Int) :
    (BuilderCall.pinWire slot pin).length ≤ packetPayloadMax := by
  have hmax : pin.length ≤ 8 := hpin.1.2
  have hslot : (BuilderCall.slotWire slot).length = 2 := length_toLittleEndian _ _
  rw [BuilderCall.pinWire, List.length_append, List.length_cons, length_encodeAscii, hslot]
  unfold packetPayloadMax
  omega

theorem slotWire_length (slot : Int) : (BuilderCall.slotWire slot).length ≤ packetPayloadMax := by
  rw [BuilderCall.slotWire, length_toLittleEndian]
  decide

theorem wire_length (c : SlotCall) : c.call.wire.length ≤ packetPayloadMax := by
  obtain ⟨call, ref, request, hasks, hok, href⟩ := c
  cases call with
  | pinCodeSet slot pin ignoreSlotCheck => exact pinWire_length hok.1 slot
  | masterPinCodeSet pin => exact pinWire_length hok masterPinSlot
  | pinCodeClear slot | rfidCodeClear slot | scanRfidCode slot => exact slotWire_length slot
  | fingerprintScan slot | fingerprintClear slot => exact slotWire_length slot
  | _ => cases hasks

theorem serves (c : SlotCall) (hlegible : slots.Legible) :
    Serves padding slots ⟨c.call.commandId, c.ref, c.call.wire, 0⟩ authenticated c.request := by
  have hknown := c.known
  obtain ⟨call, ref, request, hasks, hok, href⟩ := c
  cases authenticated with
  | false => exact serves_refused href.2 hknown hlegible request
  | true =>
    cases call with
    | pinCodeSet slot pin ignoreSlotCheck =>
      cases hasks
      have hslot : BuilderCall.FitsField slot 2 := by
        cases ignoreSlotCheck
        · exact BuilderCall.fitsField_of_inRange (by decide) (by decide) hok.2
        · exact BuilderCall.fitsField_of_inRange (by decide) (by decide) hok.2
      exact serves_pinCodeSet hslot hok.1 href.2 hlegible
    | masterPinCodeSet pin =>
      cases hasks
      have hslot : BuilderCall.FitsField masterPinSlot 2 := by
        unfold BuilderCall.FitsField
        decide
      exact serves_pinCodeSet hslot hok href.2 hlegible
    | pinCodeClear slot =>
      cases hasks
      exact serves_pinCodeClear (BuilderCall.fitsField_of_inRange (by decide) (by decide) hok) href.2 hlegible
    | rfidCodeClear slot =>
      cases hasks
      exact serves_clear .rfid (BuilderCall.fitsField_of_inRange (by decide) (by decide) hok) href.2 hlegible
    | scanRfidCode slot =>
      cases hasks
      exact serves_scan .rfid (BuilderCall.fitsField_of_inRange (by decide) (by decide) hok) href.2 hlegible
    | fingerprintScan slot =>
      cases hasks
      exact serves_scan .fingerprint (BuilderCall.fitsField_of_inRange (by decide) (by decide) hok) href.2 hlegible
    | fingerprintClear slot =>
      cases hasks
      exact serves_clear .fingerprint (BuilderCall.fitsField_of_inRange (by decide) (by decide) hok) href.2 hlegible
    | _ => cases hasks

/-- One request over the wire is one entry in the book. -/
theorem slotRequest_refines (c : SlotCall) (hlegible : slots.Legible) :
    ∃ slots', slotRequest authenticated padding slots c.call c.ref =
        .ok (slots', (slots.book.apply authenticated c.request).2.heard c.call.commandId) ∧
      slots'.book = (slots.book.apply authenticated c.request).1 ∧ slots'.Legible := by
  obtain ⟨slots', responses, hhandle, hheard, hbook, hlegible'⟩ := c.serves authenticated padding hlegible
  exact ⟨slots', slotRequest_eq c.acceptable c.wire_length c.ref_bounds hhandle hheard, hbook, hlegible'⟩

end SlotCall

/-! Which slots a credential can come to stand in. -/

def CredentialKind.Place : CredentialKind → Nat → Prop
  | pin, slot => slot = 0 ∨ (800 ≤ slot ∧ slot < 900)
  | fingerprint, slot => 150 ≤ slot ∧ slot < 200
  | rfid, slot => 900 ≤ slot ∧ slot < 1000

def SlotBook.InPlace (book : SlotBook) : Prop := ∀ kind slot content, book kind slot = some content → kind.Place slot

/-- The slot check is skipped for the master PIN only. -/
def BuilderCall.Checked : BuilderCall → Prop
  | .pinCodeSet _ _ ignoreSlotCheck => ignoreSlotCheck = false
  | _ => True

theorem SlotBook.InPlace.write {book : SlotBook} (h : book.InPlace) {kind : CredentialKind} {slot : Nat}
    {content : Option String} (hplace : content.isSome → kind.Place slot) : (book.write kind slot content).InPlace := by
  intro k s found hfound
  by_cases hk : k = kind
  · subst hk
    by_cases hs : s = slot
    · subst hs
      simp only [SlotBook.write, Function.update_self] at hfound
      exact hplace (by rw [hfound]; rfl)
    · simp only [SlotBook.write, Function.update_self, Function.update_of_ne hs] at hfound
      exact h k s found hfound
  · simp only [SlotBook.write, Function.update_of_ne hk] at hfound
    exact h k s found hfound

theorem SlotCall.inPlace (c : SlotCall) (hchecked : c.call.Checked) {book : SlotBook} (h : book.InPlace)
    (authenticated : Bool) : (book.apply authenticated c.request).1.InPlace := by
  obtain ⟨call, ref, request, hasks, hok, href⟩ := c
  cases authenticated with
  | false => exact h
  | true =>
    cases call with
    | pinCodeSet slot pin ignoreSlotCheck =>
      cases hasks
      cases hchecked
      have hrange : 800 ≤ slot ∧ slot < 900 := hok.2
      refine h.write fun _ => .inr ?_
      omega
    | masterPinCodeSet pin =>
      cases hasks
      exact h.write fun _ => .inl rfl
    | scanRfidCode slot =>
      cases hasks
      have hrange : 900 ≤ slot ∧ slot < 1000 := hok
      refine h.write fun _ => ?_
      unfold CredentialKind.Place
      omega
    | fingerprintScan slot =>
      cases hasks
      have hrange : 150 ≤ slot ∧ slot < 200 := hok
      refine h.write fun _ => ?_
      unfold CredentialKind.Place
      omega
    | pinCodeClear slot | rfidCodeClear slot | fingerprintClear slot =>
      cases hasks
      exact h.write fun hsome => by cases hsome
    | _ => cases hasks

/-- A run of requests over the wire keeps the book, tells every caller what the
book tells, and leaves each credential in the slots of its kind. -/
theorem slotRequests_refine (authenticated : Bool) (padding : Bytes) (calls : List SlotCall) {slots : LockSlots}
    (hlegible : slots.Legible) :
    ∃ slots', slotRequests authenticated padding slots (calls.map (fun c => (c.call, c.ref))) =
        .ok (slots', List.zipWith (fun c outcome => SlotOutcome.heard c.call.commandId outcome) calls
          (slots.book.applyAll authenticated (calls.map SlotCall.request)).2) ∧
      slots'.book = (slots.book.applyAll authenticated (calls.map SlotCall.request)).1 ∧ slots'.Legible ∧
      ((∀ c ∈ calls, c.call.Checked) → slots.book.InPlace → slots'.book.InPlace) := by
  induction calls generalizing slots with
  | nil => exact ⟨slots, rfl, rfl, hlegible, fun _ h => h⟩
  | cons c calls ih =>
    obtain ⟨slots', hrequest, hbook, hlegible'⟩ := c.slotRequest_refines authenticated padding hlegible
    obtain ⟨slots'', hrest, hbook', hlegible'', hplace⟩ := ih hlegible'
    rw [hbook] at hrest hbook' hplace
    refine ⟨slots'', ?_, hbook', hlegible'', fun hchecked hbefore => ?_⟩
    · simp only [List.map_cons, slotRequests, hrequest, ok_bind, hrest, pure_eq_ok, SlotBook.applyAll,
        List.zipWith_cons_cons]
    · have hchecked' : ∀ d ∈ calls, d.call.Checked := fun d hd => hchecked d (List.mem_cons_of_mem c hd)
      exact hplace hchecked' (c.inPlace (hchecked c List.mem_cons_self) hbefore authenticated)

/-- Two PINs are set, a tag is scanned, and the first PIN is taken out twice. -/
def slotRun : List SlotCall :=
  [⟨.pinCodeSet 801 "1234" false, 1, _, rfl, by decide, by decide⟩,
    ⟨.masterPinCodeSet "56789", 2, _, rfl, by decide, by decide⟩,
    ⟨.scanRfidCode 900, 3, _, rfl, by decide, by decide⟩,
    ⟨.pinCodeClear 801, 4, _, rfl, by decide, by decide⟩,
    ⟨.pinCodeClear 801, 5, _, rfl, by decide, by decide⟩]

theorem slotRequests_refine_slotRun :
    ∃ slots', slotRequests true [0, 0, 0] LockSlots.empty (slotRun.map (fun c => (c.call, c.ref))) =
        .ok (slots', [⟨[], .ok .done⟩, ⟨[], .ok .done⟩, ⟨[.userAdded 900 2], .ok (.scanResult ⟨900, .known 0⟩)⟩,
          ⟨[], .ok .done⟩, ⟨[], .error (.operation 6 0x53)⟩]) ∧
      slots'.book .pin 801 = none ∧ slots'.book .pin 0 = some "56789" ∧ slots'.book .rfid 900 = some "" := by
  have hlegible : LockSlots.empty.Legible := fun _ h => by cases h
  obtain ⟨slots', hrun, hbook, -, -⟩ := slotRequests_refine true [0, 0, 0] slotRun hlegible
  refine ⟨slots', hrun.trans ?_, ?_, ?_, ?_⟩
  · rfl
  · rw [hbook]
    rfl
  · rw [hbook]
    rfl
  · rw [hbook]
    rfl

end OnestiLock
