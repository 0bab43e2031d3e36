import OnestiLock.CommandBuilders

/-! A command's payload says which builder was called and with what. -/

namespace OnestiLock

theorem ofLittleEndian_field {value : Int} {size : Nat} (h : BuilderCall.FitsField value size) :
    (ofLittleEndian (toLittleEndian value.toNat size) : Int) = value := by
  have hnat : value.toNat < 2 ^ (8 * size) := by
    have hcast : ((value.toNat : Nat) : Int) < ((2 ^ (8 * size) : Nat) : Int) := by
      rw [Int.toNat_of_nonneg h.1]
      exact_mod_cast h.2
    exact_mod_cast hcast
  rw [ofLittleEndian_toLittleEndian hnat]
  exact Int.toNat_of_nonneg h.1

/-- `bytes.decode` of ASCII. -/
def decodeText (b : Bytes) : List Char := b.map (fun x => Char.ofNat x.toNat)

theorem decodeText_encodeAscii {text : String} (h : isAscii text = true) :
    decodeText (encodeAscii text) = text.toList := by
  have hascii := List.all_eq_true.mp h
  have hchar : ∀ c ∈ text.toList, Char.ofNat (UInt8.ofNat c.toNat).toNat = c := by
    intro c hc
    have hlt : c.toNat < 128 := of_decide_eq_true (hascii c hc)
    have hbyte : (UInt8.ofNat c.toNat).toNat = c.toNat := toNat_ofNat_of_lt (by omega)
    rw [hbyte, Char.ofNat_toNat]
  rw [decodeText, encodeAscii, List.map_map]
  calc text.toList.map ((fun x : UInt8 => Char.ofNat x.toNat) ∘ fun c : Char => UInt8.ofNat c.toNat)
      = text.toList.map id := List.map_congr_left hchar
    _ = text.toList := List.map_id _

/-- A name that is padded with NULs cannot end in one. -/
def withoutPadding (text : List Char) : List Char := text.rdropWhile (· == '\x00')

theorem withoutPadding_append (text : List Char) (padding : Nat) :
    withoutPadding (text ++ List.replicate padding '\x00') = withoutPadding text := by
  unfold withoutPadding List.rdropWhile
  rw [List.reverse_append, List.reverse_replicate, List.dropWhile_append_of_pos]
  intro c hc
  rw [List.eq_of_mem_replicate hc]
  rfl

theorem withoutPadding_padded (text : List Char) :
    ∃ padding, text = withoutPadding text ++ List.replicate padding '\x00' := by
  refine ⟨(text.rtakeWhile (· == '\x00')).length, ?_⟩
  have hnul : ∀ c ∈ text.rtakeWhile (· == '\x00'), c = '\x00' :=
    fun c hc => by simpa using List.mem_rtakeWhile_imp hc
  have hrest := List.eq_replicate_of_mem hnul
  unfold withoutPadding
  rw [← hrest]
  exact (List.rdropWhile_append_rtakeWhile ..).symm

namespace BuilderCall

/-- What a call asks the lock for: which arguments only the builder looks at,
and which texts the lock cannot tell apart, is left out. -/
def meaning : BuilderCall → BuilderCall
  | pinCodeSet slot pin _ => .pinCodeSet slot pin true
  | masterPinCodeSet pin => .pinCodeSet masterPinSlot pin true
  | deviceNameSet name => .deviceNameSet (String.ofList (withoutPadding name.toList))
  | c => c

/-- A payload as the layout of its command says to read it. -/
def reading (p : CommandPayload) : Option BuilderCall :=
  match p.commandId with
  | .exchangeKeyPubM => some (.exchangeKeyPubM p.data)
  | .userAuthBegin => some (.userAuthBegin (ofLittleEndian (p.data.take 1)) (p.data.drop 1))
  | .userAuthFinalize => some (.userAuthFinalize p.data)
  | .userAuthUpdate =>
    some (.userAuthUpdate (ofLittleEndian (p.data.take 1)) (ofLittleEndian ((p.data.drop 1).take 1)) (p.data.drop 2))
  | .deviceIdSet => some (.deviceIdSet p.data)
  | .deviceNameSet => some (.deviceNameSet (String.ofList (withoutPadding (decodeText p.data))))
  | .serverKeyUpdate => some (.serverKeyUpdate p.data)
  | .pinCodeSet =>
    some (.pinCodeSet (ofLittleEndian (p.data.take 2)) (String.ofList (decodeText (p.data.drop 3))) true)
  | .pinCodeClear => some (.pinCodeClear (ofLittleEndian p.data))
  | .rfidCodeClear => some (.rfidCodeClear (ofLittleEndian p.data))
  | .scanRfidCode => some (.scanRfidCode (ofLittleEndian p.data))
  | .fingerprintScan => some (.fingerprintScan (ofLittleEndian p.data))
  | .fingerprintClear => some (.fingerprintClear (ofLittleEndian p.data))
  | .ekeyOperate => some (.ekeyOperate (ofLittleEndian p.data))
  | .volumeSet => some (.volumeSet (ofLittleEndian p.data))
  | .autoLockSet => some (.autoLockSet (ofLittleEndian p.data == 1))
  | .keypadEnableSet => some (.keypadEnableSet (ofLittleEndian p.data == 1))
  | .currentTimeSet => some (.currentTimeSet (ofLittleEndian p.data))
  | .deviceIdGet => some .deviceIdGet
  | .deviceNameGet => some .deviceNameGet
  | .currentTimeGet => some .currentTimeGet
  | .battInfoGet => some .battInfoGet
  | .deviceLogGet => some .deviceLogGet
  | .deviceModelGet => some .deviceModelGet
  | _ => none

theorem fitsField_of_inRange {slot : Int} {slots : SlotRange} (hstart : 0 ≤ slots.start)
    (hstop : slots.stop ≤ 65536) (h : InRange slot slots) : FitsField slot 2 := by
  unfold InRange at h
  unfold FitsField
  omega

theorem ofLittleEndian_slotWire {slot : Int} {slots : SlotRange} (hstart : 0 ≤ slots.start)
    (hstop : slots.stop ≤ 65536) (h : InRange slot slots) : (ofLittleEndian (slotWire slot) : Int) = slot :=
  ofLittleEndian_field (fitsField_of_inRange hstart hstop h)

theorem reading_pinWire {slot : Int} {pin : String} (hslot : FitsField slot 2) (hpin : IsPin pin) :
    reading ⟨.pinCodeSet, pinWire slot pin⟩ = some (.pinCodeSet slot pin true) := by
  have hlength : (slotWire slot).length = 2 := length_toLittleEndian _ _
  have htake : (pinWire slot pin).take 2 = slotWire slot := by
    rw [pinWire, ← hlength, List.take_left]
  have hdrop : (pinWire slot pin).drop 3 = encodeAscii pin := by
    rw [pinWire, List.drop_append, hlength, List.drop_eq_nil_of_le (by omega)]
    rfl
  have hback : (ofLittleEndian (slotWire slot) : Int) = slot := ofLittleEndian_field hslot
  simp only [reading, htake, hdrop, hback, decodeText_encodeAscii (isAscii_of_isPin hpin), String.ofList_toList]

/-- What was asked for can be read off what was written. -/
theorem reading_wire {c : BuilderCall} (h : c.Acceptable) : reading ⟨c.commandId, c.wire⟩ = some c.meaning := by
  have hmember : ∀ {members : List Int} {value : Int}, (∀ m ∈ members, 0 ≤ m ∧ m < 256) → value ∈ members →
      (ofLittleEndian (byteWire value) : Int) = value := by
    intro members value hall hmem
    have hfits : FitsField value 1 := hall value hmem
    exact ofLittleEndian_field hfits
  cases c with
  | userAuthBegin userId deviceId =>
    have huser : (ofLittleEndian (byteWire userId) : Int) = userId := ofLittleEndian_field h.2
    exact congrArg (fun u => some (BuilderCall.userAuthBegin u deviceId)) huser
  | userAuthUpdate userId credentials publicKey =>
    have huser : (ofLittleEndian (byteWire userId) : Int) = userId := ofLittleEndian_field h.2.1
    have hcredentials : (ofLittleEndian (byteWire credentials) : Int) = credentials := ofLittleEndian_field h.2.2
    exact congrArg₂ (fun u v => some (BuilderCall.userAuthUpdate u v publicKey)) huser hcredentials
  | deviceNameSet name =>
    have htext : decodeText (encodeAscii name ++ List.replicate (deviceNameMaxLength - name.length) 0) =
        name.toList ++ List.replicate (deviceNameMaxLength - name.length) '\x00' := by
      have hname := decodeText_encodeAscii h.1
      unfold decodeText at hname ⊢
      rw [List.map_append, hname, List.map_replicate]
      rfl
    simp only [commandId, wire, reading, meaning, htext, withoutPadding_append]
  | pinCodeSet slot pin ignoreSlotCheck =>
    have hslot : FitsField slot 2 := by
      cases ignoreSlotCheck
      · exact fitsField_of_inRange (by decide) (by decide) h.2
      · exact fitsField_of_inRange (by decide) (by decide) h.2
    exact reading_pinWire hslot h.1
  | masterPinCodeSet pin => exact reading_pinWire ⟨by decide, by decide⟩ h
  | pinCodeClear slot =>
    exact congrArg (fun s => some (BuilderCall.pinCodeClear s)) (ofLittleEndian_slotWire (by decide) (by decide) h)
  | rfidCodeClear slot =>
    exact congrArg (fun s => some (BuilderCall.rfidCodeClear s)) (ofLittleEndian_slotWire (by decide) (by decide) h)
  | scanRfidCode slot =>
    exact congrArg (fun s => some (BuilderCall.scanRfidCode s)) (ofLittleEndian_slotWire (by decide) (by decide) h)
  | fingerprintScan slot =>
    exact congrArg (fun s => some (BuilderCall.fingerprintScan s)) (ofLittleEndian_slotWire (by decide) (by decide) h)
  | fingerprintClear slot =>
    exact congrArg (fun s => some (BuilderCall.fingerprintClear s))
      (ofLittleEndian_slotWire (by decide) (by decide) h)
  | ekeyOperate operation =>
    exact congrArg (fun v => some (BuilderCall.ekeyOperate v)) (hmember (by decide) h)
  | volumeSet volume =>
    exact congrArg (fun v => some (BuilderCall.volumeSet v)) (hmember (by decide) h)
  | currentTimeSet time =>
    exact congrArg (fun t => some (BuilderCall.currentTimeSet t)) (ofLittleEndian_field h)
  | autoLockSet enabled => cases enabled <;> rfl
  | keypadEnableSet enabled => cases enabled <;> rfl
  | exchangeKeyPubM | userAuthFinalize | deviceIdSet | serverKeyUpdate => rfl
  | deviceIdGet | deviceNameGet | currentTimeGet | battInfoGet | deviceLogGet | deviceModelGet => rfl

/-- Calls that ask for the same are written the same. -/
theorem wire_meaning {c : BuilderCall} (h : c.Acceptable) :
    c.meaning.commandId = c.commandId ∧ c.meaning.wire = c.wire := by
  cases c with
  | deviceNameSet name =>
    refine ⟨rfl, ?_⟩
    obtain ⟨padding, hpadded⟩ := withoutPadding_padded name.toList
    have hlength : name.length = (withoutPadding name.toList).length + padding := by
      rw [← String.length_toList]
      conv_lhs => rw [hpadded]
      rw [List.length_append, List.length_replicate]
    have hshort : name.length < 9 := h.2
    have hencoded : encodeAscii name =
        encodeAscii (String.ofList (withoutPadding name.toList)) ++ List.replicate padding 0 := by
      unfold encodeAscii
      conv_lhs => rw [hpadded]
      rw [List.map_append, List.map_replicate, String.toList_ofList]
      rfl
    have hsum : padding + (9 - name.length) = 9 - (withoutPadding name.toList).length := by omega
    simp only [meaning, wire, deviceNameMaxLength, String.length_ofList]
    rw [hencoded, List.append_assoc, List.replicate_append_replicate, hsum]
  | _ => exact ⟨rfl, rfl⟩

/-- The builders write one payload for two calls if and only if both are taken
and both ask for the same. -/
theorem builds_same_iff (c d : BuilderCall) :
    (∃ p, c.build = .ok p ∧ d.build = .ok p) ↔ c.Acceptable ∧ d.Acceptable ∧ c.meaning = d.meaning := by
  constructor
  · rintro ⟨p, hbuilt, hbuilt'⟩
    obtain ⟨hc, hp⟩ := build_eq_ok.mp hbuilt
    obtain ⟨hd, hp'⟩ := build_eq_ok.mp hbuilt'
    have hread := reading_wire hc
    have hread' := reading_wire hd
    rw [← hp] at hread
    rw [← hp', hread] at hread'
    exact ⟨hc, hd, Option.some.inj hread'⟩
  · rintro ⟨hc, hd, hmeaning⟩
    have hwire := wire_meaning hc
    have hwire' := wire_meaning hd
    rw [hmeaning] at hwire
    refine ⟨⟨c.commandId, c.wire⟩, build_eq_ok.mpr ⟨hc, rfl⟩, build_eq_ok.mpr ⟨hd, ?_⟩⟩
    rw [← hwire.1, ← hwire.2, hwire'.1, hwire'.2]

end BuilderCall

end OnestiLock
