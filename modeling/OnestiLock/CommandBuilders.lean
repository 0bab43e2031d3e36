import Mathlib.Data.List.DropRight
import OnestiLock.DeviceName

/-! The other builders of `ble/protocol/commands.py`, and what all of them
write. -/

namespace OnestiLock

/-! Slots. -/

/-- A Python `range` of slot numbers. -/
structure SlotRange where
  start : Int
  stop : Int

def pinSlots : SlotRange := ⟨800, 900⟩
def fingerprintSlots : SlotRange := ⟨150, 200⟩
def rfidSlots : SlotRange := ⟨900, 1000⟩
def uint16Slots : SlotRange := ⟨0, 0x10000⟩

def pinLengthMin : Nat := 4
def pinLengthMax : Nat := 8
def masterPinSlot : Int := 0

def checkSlot (slot : Int) (slots : SlotRange) : Except BleValidationError Unit :=
  require (slots.start ≤ slot ∧ slot < slots.stop)
    s!"Invalid SlotNumber, got value {slot}, but expected a value range of {slots.start} - {slots.stop - 1}"

def slotCommand (commandId : CommandId) (slot : Int) (slots : SlotRange) :
    Except BleValidationError CommandPayload := do
  checkSlot slot slots
  return ⟨commandId, ← writeUInt16 [] slot⟩

def flagCommand (commandId : CommandId) (enabled : Bool) : Except BleValidationError CommandPayload := do
  return ⟨commandId, ← writeUInt8 [] (if enabled then 1 else 0)⟩

def emptyCommand (commandId : CommandId) : CommandPayload := ⟨commandId, []⟩

/-- `_member`: the values of an enumeration, by its name. -/
def memberOf (name : String) (members : List Int) (value : Int) : Except BleValidationError Int :=
  if value ∈ members then .ok value else .error ⟨s!"{value} is not a {name}"⟩

def ekeyOperationIds : List Int := [1, 2, 3]
def lockVolumeIds : List Int := [0, 1, 2]

/-! Credentials in slots. -/

def isPinDigit (char : Char) : Bool := decide ('0' ≤ char) && decide (char ≤ '9')

def pinCodeSet (slot : Int) (pin : String) (ignoreSlotCheck : Bool) : Except BleValidationError CommandPayload := do
  require (pinLengthMin ≤ pin.length ∧ pin.length ≤ pinLengthMax)
    s!"Invalid Pincode, expected a length of {pinLengthMin} - {pinLengthMax}, but got length {pin.length}"
  require (pin.toList.all isPinDigit = true) "Invalid Pincode, only the characters 0-9 are permitted"
  checkSlot slot (if ignoreSlotCheck then uint16Slots else pinSlots)
  let buffer ← writeUInt16 [] slot
  let buffer ← writeUInt8 buffer pin.length
  return ⟨.pinCodeSet, ← writeRawString buffer pin⟩

def masterPinCodeSet (pin : String) : Except BleValidationError CommandPayload :=
  pinCodeSet masterPinSlot pin true

def pinCodeClear (slot : Int) := slotCommand .pinCodeClear slot pinSlots
def rfidCodeClear (slot : Int) := slotCommand .rfidCodeClear slot rfidSlots
def scanRfidCode (slot : Int) := slotCommand .scanRfidCode slot rfidSlots
def fingerprintScan (slot : Int) := slotCommand .fingerprintScan slot fingerprintSlots
def fingerprintClear (slot : Int) := slotCommand .fingerprintClear slot fingerprintSlots

/-! Lock operation, settings and readouts. -/

def ekeyOperate (operation : Int) : Except BleValidationError CommandPayload := do
  return ⟨.ekeyOperate, ← writeUInt8 [] (← memberOf "EkeyOperationId" ekeyOperationIds operation)⟩

def volumeSet (volume : Int) : Except BleValidationError CommandPayload := do
  return ⟨.volumeSet, ← writeUInt8 [] (← memberOf "LockVolumeId" lockVolumeIds volume)⟩

def autoLockSet (enabled : Bool) := flagCommand .autoLockSet enabled
def keypadEnableSet (enabled : Bool) := flagCommand .keypadEnableSet enabled

def deviceIdGet : CommandPayload := emptyCommand .deviceIdGet
def deviceNameGet : CommandPayload := emptyCommand .deviceNameGet
def currentTimeGet : CommandPayload := emptyCommand .currentTimeGet
def battInfoGet : CommandPayload := emptyCommand .battInfoGet
def deviceLogGet : CommandPayload := emptyCommand .deviceLogGet

/-! A call of a builder, with its arguments. -/

inductive BuilderCall
  | exchangeKeyPubM (publicKey : Bytes)
  | userAuthBegin (userId : Int) (deviceId : Bytes)
  | userAuthFinalize (challenge : Bytes)
  | userAuthUpdate (userId credentials : Int) (publicKey : Bytes)
  | deviceIdSet (deviceId : Bytes)
  | deviceNameSet (name : String)
  | serverKeyUpdate (serverPublicKey : Bytes)
  | pinCodeSet (slot : Int) (pin : String) (ignoreSlotCheck : Bool)
  | masterPinCodeSet (pin : String)
  | pinCodeClear (slot : Int)
  | rfidCodeClear (slot : Int)
  | scanRfidCode (slot : Int)
  | fingerprintScan (slot : Int)
  | fingerprintClear (slot : Int)
  | ekeyOperate (operation : Int)
  | volumeSet (volume : Int)
  | autoLockSet (enabled : Bool)
  | keypadEnableSet (enabled : Bool)
  | currentTimeSet (time : Int)
  | deviceIdGet | deviceNameGet | currentTimeGet | battInfoGet | deviceLogGet | deviceModelGet
  deriving DecidableEq, Repr

namespace BuilderCall

def build : BuilderCall → Except BleValidationError CommandPayload
  | exchangeKeyPubM publicKey => OnestiLock.exchangeKeyPubM publicKey
  | userAuthBegin userId deviceId => OnestiLock.userAuthBegin userId deviceId
  | userAuthFinalize challenge => OnestiLock.userAuthFinalize challenge
  | userAuthUpdate userId credentials publicKey => OnestiLock.userAuthUpdate userId credentials publicKey
  | deviceIdSet deviceId => OnestiLock.deviceIdSet deviceId
  | deviceNameSet name => OnestiLock.deviceNameSet name
  | serverKeyUpdate serverPublicKey => OnestiLock.serverKeyUpdate serverPublicKey
  | pinCodeSet slot pin ignoreSlotCheck => OnestiLock.pinCodeSet slot pin ignoreSlotCheck
  | masterPinCodeSet pin => OnestiLock.masterPinCodeSet pin
  | pinCodeClear slot => OnestiLock.pinCodeClear slot
  | rfidCodeClear slot => OnestiLock.rfidCodeClear slot
  | scanRfidCode slot => OnestiLock.scanRfidCode slot
  | fingerprintScan slot => OnestiLock.fingerprintScan slot
  | fingerprintClear slot => OnestiLock.fingerprintClear slot
  | ekeyOperate operation => OnestiLock.ekeyOperate operation
  | volumeSet volume => OnestiLock.volumeSet volume
  | autoLockSet enabled => OnestiLock.autoLockSet enabled
  | keypadEnableSet enabled => OnestiLock.keypadEnableSet enabled
  | currentTimeSet time => OnestiLock.currentTimeSet time
  | deviceIdGet => .ok OnestiLock.deviceIdGet
  | deviceNameGet => .ok OnestiLock.deviceNameGet
  | currentTimeGet => .ok OnestiLock.currentTimeGet
  | battInfoGet => .ok OnestiLock.battInfoGet
  | deviceLogGet => .ok OnestiLock.deviceLogGet
  | deviceModelGet => .ok OnestiLock.deviceModelGet

/-! What a call asks for, and how it is written. -/

def commandId : BuilderCall → CommandId
  | exchangeKeyPubM _ => .exchangeKeyPubM
  | userAuthBegin _ _ => .userAuthBegin
  | userAuthFinalize _ => .userAuthFinalize
  | userAuthUpdate _ _ _ => .userAuthUpdate
  | deviceIdSet _ => .deviceIdSet
  | deviceNameSet _ => .deviceNameSet
  | serverKeyUpdate _ => .serverKeyUpdate
  | pinCodeSet _ _ _ => .pinCodeSet
  | masterPinCodeSet _ => .pinCodeSet
  | pinCodeClear _ => .pinCodeClear
  | rfidCodeClear _ => .rfidCodeClear
  | scanRfidCode _ => .scanRfidCode
  | fingerprintScan _ => .fingerprintScan
  | fingerprintClear _ => .fingerprintClear
  | ekeyOperate _ => .ekeyOperate
  | volumeSet _ => .volumeSet
  | autoLockSet _ => .autoLockSet
  | keypadEnableSet _ => .keypadEnableSet
  | currentTimeSet _ => .currentTimeSet
  | deviceIdGet => .deviceIdGet
  | deviceNameGet => .deviceNameGet
  | currentTimeGet => .currentTimeGet
  | battInfoGet => .battInfoGet
  | deviceLogGet => .deviceLogGet
  | deviceModelGet => .deviceModelGet

/-- Whole numbers that a field of so many bytes holds. -/
def FitsField (value : Int) (size : Nat) : Prop := 0 ≤ value ∧ value < 2 ^ (8 * size)

def IsPin (pin : String) : Prop :=
  (pinLengthMin ≤ pin.length ∧ pin.length ≤ pinLengthMax) ∧ pin.toList.all isPinDigit = true

def InRange (slot : Int) (slots : SlotRange) : Prop := slots.start ≤ slot ∧ slot < slots.stop

/-- The arguments a builder takes. -/
def Acceptable : BuilderCall → Prop
  | exchangeKeyPubM publicKey => publicKey.length = publicKeyLength
  | userAuthBegin userId deviceId => deviceId.length = deviceIdLength ∧ FitsField userId 1
  | userAuthFinalize challenge => challenge.length = challengeLength
  | userAuthUpdate userId credentials publicKey =>
    publicKey.length = publicKeyLength ∧ FitsField userId 1 ∧ FitsField credentials 1
  | deviceIdSet deviceId => deviceId.length = deviceIdLength
  | deviceNameSet name => isAscii name = true ∧ name.length < deviceNameMaxLength
  | serverKeyUpdate serverPublicKey => serverPublicKey.length = publicKeyLength
  | pinCodeSet slot pin ignoreSlotCheck =>
    IsPin pin ∧ InRange slot (if ignoreSlotCheck then uint16Slots else pinSlots)
  | masterPinCodeSet pin => IsPin pin
  | pinCodeClear slot => InRange slot pinSlots
  | rfidCodeClear slot | scanRfidCode slot => InRange slot rfidSlots
  | fingerprintScan slot | fingerprintClear slot => InRange slot fingerprintSlots
  | ekeyOperate operation => operation ∈ ekeyOperationIds
  | volumeSet volume => volume ∈ lockVolumeIds
  | currentTimeSet time => FitsField time 4
  | autoLockSet _ | keypadEnableSet _ => True
  | deviceIdGet | deviceNameGet | currentTimeGet | battInfoGet | deviceLogGet | deviceModelGet => True

instance FitsField.decidable (value : Int) (size : Nat) : Decidable (FitsField value size) :=
  inferInstanceAs (Decidable (_ ∧ _))

instance IsPin.decidable (pin : String) : Decidable (IsPin pin) := inferInstanceAs (Decidable (_ ∧ _))

instance InRange.decidable (slot : Int) (slots : SlotRange) : Decidable (InRange slot slots) :=
  inferInstanceAs (Decidable (_ ∧ _))

instance Acceptable.decidable : (c : BuilderCall) → Decidable c.Acceptable
  | exchangeKeyPubM _ | userAuthFinalize _ | deviceIdSet _ | serverKeyUpdate _ => inferInstanceAs (Decidable (_ = _))
  | userAuthBegin _ _ | deviceNameSet _ | pinCodeSet _ _ _ => inferInstanceAs (Decidable (_ ∧ _))
  | userAuthUpdate _ _ _ => inferInstanceAs (Decidable (_ ∧ _ ∧ _))
  | masterPinCodeSet pin => inferInstanceAs (Decidable (IsPin pin))
  | pinCodeClear slot => inferInstanceAs (Decidable (InRange slot pinSlots))
  | rfidCodeClear slot | scanRfidCode slot => inferInstanceAs (Decidable (InRange slot rfidSlots))
  | fingerprintScan slot | fingerprintClear slot => inferInstanceAs (Decidable (InRange slot fingerprintSlots))
  | ekeyOperate operation => inferInstanceAs (Decidable (operation ∈ ekeyOperationIds))
  | volumeSet volume => inferInstanceAs (Decidable (volume ∈ lockVolumeIds))
  | currentTimeSet time => inferInstanceAs (Decidable (FitsField time 4))
  | autoLockSet _ | keypadEnableSet _ => inferInstanceAs (Decidable True)
  | deviceIdGet | deviceNameGet | currentTimeGet | battInfoGet | deviceLogGet | deviceModelGet =>
    inferInstanceAs (Decidable True)

def slotWire (slot : Int) : Bytes := toLittleEndian slot.toNat 2

def pinWire (slot : Int) (pin : String) : Bytes :=
  slotWire slot ++ UInt8.ofNat pin.length :: encodeAscii pin

def byteWire (value : Int) : Bytes := [UInt8.ofNat value.toNat]

def wire : BuilderCall → Bytes
  | exchangeKeyPubM publicKey => publicKey
  | userAuthBegin userId deviceId => byteWire userId ++ deviceId
  | userAuthFinalize challenge => challenge
  | userAuthUpdate userId credentials publicKey => byteWire userId ++ byteWire credentials ++ publicKey
  | deviceIdSet deviceId => deviceId
  | deviceNameSet name => encodeAscii name ++ List.replicate (deviceNameMaxLength - name.length) 0
  | serverKeyUpdate serverPublicKey => serverPublicKey
  | pinCodeSet slot pin _ => pinWire slot pin
  | masterPinCodeSet pin => pinWire masterPinSlot pin
  | pinCodeClear slot | rfidCodeClear slot | scanRfidCode slot => slotWire slot
  | fingerprintScan slot | fingerprintClear slot => slotWire slot
  | ekeyOperate value | volumeSet value => byteWire value
  | autoLockSet enabled | keypadEnableSet enabled => byteWire (if enabled then 1 else 0)
  | currentTimeSet time => toLittleEndian time.toNat 4
  | deviceIdGet | deviceNameGet | currentTimeGet | battInfoGet | deviceLogGet | deviceModelGet => []

end BuilderCall

/-! Each field is written if and only if its value fits. -/

theorem writeUInt_eq_ok {buffer out : Bytes} {value : Int} {size : Nat} :
    writeUInt buffer value size = .ok out ↔
      BuilderCall.FitsField value size ∧ out = buffer ++ toLittleEndian value.toNat size := by
  unfold writeUInt BuilderCall.FitsField
  by_cases h : 0 ≤ value ∧ value < 2 ^ (8 * size)
  · rw [if_pos h, Except.ok.injEq, and_iff_right h]
    exact eq_comm
  · rw [if_neg h]
    simp [h]

theorem writeUInt8_eq_ok {buffer out : Bytes} {value : Int} :
    writeUInt8 buffer value = .ok out ↔
      BuilderCall.FitsField value 1 ∧ out = buffer ++ BuilderCall.byteWire value := by
  rw [writeUInt8, writeUInt_eq_ok]
  rfl

theorem writeUInt16_eq_ok {buffer out : Bytes} {value : Int} :
    writeUInt16 buffer value = .ok out ↔
      BuilderCall.FitsField value 2 ∧ out = buffer ++ BuilderCall.slotWire value := by
  rw [writeUInt16, writeUInt_eq_ok]
  rfl

theorem checkLength_eq_ok {value : Bytes} {name : String} {length : Nat} {u : Unit} :
    checkLength value name length = .ok u ↔ value.length = length :=
  require_ok

theorem checkSlot_eq_ok {slot : Int} {slots : SlotRange} {u : Unit} :
    checkSlot slot slots = .ok u ↔ BuilderCall.InRange slot slots :=
  require_ok

theorem memberOf_eq_ok {name : String} {members : List Int} {value out : Int} :
    memberOf name members value = .ok out ↔ value ∈ members ∧ out = value := by
  unfold memberOf
  by_cases h : value ∈ members
  · rw [if_pos h, Except.ok.injEq, and_iff_right h]
    exact eq_comm
  · rw [if_neg h]
    simp [h]

theorem sizedCommand_eq_ok {commandId : CommandId} {value : Bytes} {name : String} {length : Nat}
    {p : CommandPayload} :
    (do checkLength value name length; return ⟨commandId, value⟩ : Except BleValidationError CommandPayload) = .ok p ↔
      value.length = length ∧ p = ⟨commandId, value⟩ := by
  simp only [bind_eq_ok, checkLength_eq_ok, pure_eq_ok, Except.ok.injEq, exists_const]
  exact and_congr_right' eq_comm

theorem memberCommand_eq_ok {commandId : CommandId} {name : String} {members : List Int} {value : Int}
    {p : CommandPayload} (hfits : ∀ m ∈ members, 0 ≤ m ∧ m < 256) :
    (do return ⟨commandId, ← writeUInt8 [] (← memberOf name members value)⟩ :
      Except BleValidationError CommandPayload) = .ok p ↔
      value ∈ members ∧ p = ⟨commandId, BuilderCall.byteWire value⟩ := by
  simp only [bind_eq_ok, memberOf_eq_ok, writeUInt8_eq_ok, pure_eq_ok, Except.ok.injEq, List.nil_append]
  constructor
  · rintro ⟨_, ⟨hmem, rfl⟩, _, ⟨-, rfl⟩, rfl⟩
    exact ⟨hmem, rfl⟩
  · rintro ⟨hmem, rfl⟩
    exact ⟨_, ⟨hmem, rfl⟩, _, ⟨hfits value hmem, rfl⟩, rfl⟩

theorem flagCommand_eq_ok {commandId : CommandId} {enabled : Bool} {p : CommandPayload} :
    flagCommand commandId enabled = .ok p ↔
      True ∧ p = ⟨commandId, BuilderCall.byteWire (if enabled then 1 else 0)⟩ := by
  have hfits : BuilderCall.FitsField (if enabled then 1 else 0) 1 := by
    cases enabled <;> exact ⟨by decide, by decide⟩
  simp only [flagCommand, bind_eq_ok, writeUInt8_eq_ok, pure_eq_ok, Except.ok.injEq, List.nil_append, true_and]
  constructor
  · rintro ⟨_, ⟨-, rfl⟩, rfl⟩
    rfl
  · rintro rfl
    exact ⟨_, ⟨hfits, rfl⟩, rfl⟩

theorem slotCommand_eq_ok {commandId : CommandId} {slot : Int} {slots : SlotRange} {p : CommandPayload}
    (hstart : 0 ≤ slots.start) (hstop : slots.stop ≤ 65536) :
    slotCommand commandId slot slots = .ok p ↔
      BuilderCall.InRange slot slots ∧ p = ⟨commandId, BuilderCall.slotWire slot⟩ := by
  simp only [slotCommand, bind_eq_ok, checkSlot_eq_ok, writeUInt16_eq_ok, pure_eq_ok, Except.ok.injEq,
    List.nil_append]
  constructor
  · rintro ⟨-, hrange, out, ⟨-, rfl⟩, rfl⟩
    exact ⟨hrange, rfl⟩
  · rintro ⟨hrange, rfl⟩
    have hfits : BuilderCall.FitsField slot 2 := by
      unfold BuilderCall.InRange at hrange
      unfold BuilderCall.FitsField
      omega
    exact ⟨(), hrange, _, ⟨hfits, rfl⟩, rfl⟩

theorem isAscii_of_isPin {pin : String} (h : BuilderCall.IsPin pin) : isAscii pin = true := by
  have hdigits := List.all_eq_true.mp h.2
  unfold isAscii
  rw [List.all_eq_true]
  intro c hc
  have hdigit := hdigits c hc
  simp only [isPinDigit, Bool.and_eq_true, decide_eq_true_eq, Char.le_def, UInt32.le_iff_toNat_le] at hdigit
  have hupper : c.toNat ≤ 57 := hdigit.2
  exact decide_eq_true (by omega)

theorem pinCodeSet_eq_ok {slot : Int} {pin : String} {ignoreSlotCheck : Bool} {p : CommandPayload} :
    pinCodeSet slot pin ignoreSlotCheck = .ok p ↔
      (BuilderCall.IsPin pin ∧ BuilderCall.InRange slot (if ignoreSlotCheck then uint16Slots else pinSlots)) ∧
        p = ⟨.pinCodeSet, BuilderCall.pinWire slot pin⟩ := by
  simp only [pinCodeSet, bind_eq_ok, require_ok, checkSlot_eq_ok, writeUInt16_eq_ok, writeUInt8_eq_ok, pure_eq_ok,
    Except.ok.injEq, List.nil_append]
  constructor
  · rintro ⟨-, hlength, -, hdigits, -, hrange, out, ⟨-, rfl⟩, more, ⟨-, rfl⟩, text, htext, rfl⟩
    have hpin : BuilderCall.IsPin pin := ⟨hlength, hdigits⟩
    rw [writeRawString, if_pos (isAscii_of_isPin hpin)] at htext
    cases htext
    refine ⟨⟨hpin, hrange⟩, ?_⟩
    simp [BuilderCall.pinWire, BuilderCall.byteWire]
  · rintro ⟨⟨hpin, hrange⟩, rfl⟩
    have hslot : BuilderCall.FitsField slot 2 := by
      have hbounds : 0 ≤ slot ∧ slot < 65536 := by
        cases ignoreSlotCheck
        · have hlow : (800 : Int) ≤ slot ∧ slot < 900 := hrange
          omega
        · exact hrange
      exact hbounds
    have hlength : BuilderCall.FitsField pin.length 1 := by
      have hmax : pin.length ≤ 8 := hpin.1.2
      unfold BuilderCall.FitsField
      omega
    have hascii := isAscii_of_isPin hpin
    refine ⟨(), hpin.1, (), hpin.2, (), hrange, _, ⟨hslot, rfl⟩, _, ⟨hlength, rfl⟩, _, if_pos hascii, ?_⟩
    simp [BuilderCall.pinWire, BuilderCall.byteWire]

namespace BuilderCall

/-- A builder takes exactly the acceptable arguments, and writes one payload for them. -/
theorem build_eq_ok {c : BuilderCall} {p : CommandPayload} :
    c.build = .ok p ↔ c.Acceptable ∧ p = ⟨c.commandId, c.wire⟩ := by
  cases c with
  | exchangeKeyPubM publicKey => exact sizedCommand_eq_ok
  | userAuthBegin userId deviceId =>
    simp only [build, OnestiLock.userAuthBegin, bind_eq_ok, checkLength_eq_ok, writeUInt8_eq_ok, pure_eq_ok,
      Except.ok.injEq, List.nil_append, Acceptable, commandId, wire]
    constructor
    · rintro ⟨-, hlength, _, ⟨hfits, rfl⟩, rfl⟩
      exact ⟨⟨hlength, hfits⟩, rfl⟩
    · rintro ⟨⟨hlength, hfits⟩, rfl⟩
      exact ⟨(), hlength, _, ⟨hfits, rfl⟩, rfl⟩
  | userAuthFinalize challenge => exact sizedCommand_eq_ok
  | userAuthUpdate userId credentials publicKey =>
    simp only [build, OnestiLock.userAuthUpdate, bind_eq_ok, checkLength_eq_ok, writeUInt8_eq_ok, pure_eq_ok,
      Except.ok.injEq, List.nil_append, Acceptable, commandId, wire]
    constructor
    · rintro ⟨-, hlength, _, ⟨huser, rfl⟩, _, ⟨hcredentials, rfl⟩, rfl⟩
      exact ⟨⟨hlength, huser, hcredentials⟩, rfl⟩
    · rintro ⟨⟨hlength, huser, hcredentials⟩, rfl⟩
      exact ⟨(), hlength, _, ⟨huser, rfl⟩, _, ⟨hcredentials, rfl⟩, rfl⟩
  | deviceIdSet deviceId => exact sizedCommand_eq_ok
  | deviceNameSet name =>
    have hascii : isAscii name = true ↔ ∀ c ∈ name.toList, c.toNat < 128 := by simp [isAscii]
    simp only [build, OnestiLock.deviceNameSet, bind_eq_ok, writeString_eq_ok, pure_eq_ok, Except.ok.injEq,
      List.nil_append, Acceptable, commandId, wire, hascii]
    constructor
    · rintro ⟨_, ⟨hall, hlength, rfl⟩, rfl⟩
      exact ⟨⟨hall, hlength⟩, rfl⟩
    · rintro ⟨⟨hall, hlength⟩, rfl⟩
      exact ⟨_, ⟨hall, hlength, rfl⟩, rfl⟩
  | serverKeyUpdate serverPublicKey => exact sizedCommand_eq_ok
  | pinCodeSet slot pin ignoreSlotCheck => exact pinCodeSet_eq_ok
  | masterPinCodeSet pin =>
    rw [build, OnestiLock.masterPinCodeSet, pinCodeSet_eq_ok]
    have hzero : InRange masterPinSlot uint16Slots := by
      unfold InRange
      decide
    exact and_congr_left' (and_iff_left hzero)
  | pinCodeClear slot => exact slotCommand_eq_ok (by decide) (by decide)
  | rfidCodeClear slot => exact slotCommand_eq_ok (by decide) (by decide)
  | scanRfidCode slot => exact slotCommand_eq_ok (by decide) (by decide)
  | fingerprintScan slot => exact slotCommand_eq_ok (by decide) (by decide)
  | fingerprintClear slot => exact slotCommand_eq_ok (by decide) (by decide)
  | ekeyOperate operation => exact memberCommand_eq_ok (by decide)
  | volumeSet volume => exact memberCommand_eq_ok (by decide)
  | autoLockSet enabled => exact flagCommand_eq_ok
  | keypadEnableSet enabled => exact flagCommand_eq_ok
  | currentTimeSet time =>
    simp only [build, OnestiLock.currentTimeSet, bind_eq_ok, writeUInt32, writeUInt_eq_ok, pure_eq_ok,
      Except.ok.injEq, List.nil_append, Acceptable, commandId, wire]
    constructor
    · rintro ⟨_, ⟨hfits, rfl⟩, rfl⟩
      exact ⟨hfits, rfl⟩
    · rintro ⟨hfits, rfl⟩
      exact ⟨_, ⟨hfits, rfl⟩, rfl⟩
  | deviceIdGet | deviceNameGet | currentTimeGet | battInfoGet | deviceLogGet | deviceModelGet =>
    simp [build, Acceptable, commandId, wire, OnestiLock.deviceIdGet, OnestiLock.deviceNameGet,
      OnestiLock.currentTimeGet, OnestiLock.battInfoGet, OnestiLock.deviceLogGet, OnestiLock.deviceModelGet,
      emptyCommand, eq_comm]

end BuilderCall

end OnestiLock
