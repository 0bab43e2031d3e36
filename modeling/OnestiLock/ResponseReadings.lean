import OnestiLock.DeviceName
import OnestiLock.Layout

/-! The other parsers of `ble/protocol/responses.py`, and what every parser
accepts. -/

namespace OnestiLock

section

variable {α : Type}

/-- A parser that checks id and status, and reads its fields off the payload. -/
def parseFields (command : CommandId) (fields : Bytes → Except BleProtocolError (α × Bytes)) (r : Response) :
    Except BleError α := do
  let reader ← responseReader r (expectedResponseId command)
  let (a, _) ← liftProtocol (fields reader)
  return a

end

/-! The fields. -/

structure BattInfo where
  level : Nat
  lowBattery : Bool
  percent : Nat
  deriving DecidableEq, Repr

structure DeviceModel where
  model : Nat
  raw : Nat
  deriving DecidableEq, Repr

/-- A status that `LockStatusId` knows, or the raw byte. -/
inductive ScanStatus
  | known (status : Nat)
  | raw (status : Nat)
  deriving DecidableEq, Repr

structure ScanResult where
  slot : Nat
  status : ScanStatus
  deriving DecidableEq, Repr

def lockStatusIds : List Nat := [0, 1, 2, 3, 4, 5, 6]

def scanStatus (raw : Nat) : ScanStatus := if raw ∈ lockStatusIds then .known raw else .raw raw

def battInfoFields (reader : Bytes) : Except BleProtocolError (BattInfo × Bytes) := do
  let (level, reader) ← readUInt16 reader
  let (low, reader) ← readUInt8 reader
  let (percent, reader) ← readUInt8 reader
  return (⟨level, low == 1, percent⟩, reader)

def deviceModelFields (reader : Bytes) : Except BleProtocolError (DeviceModel × Bytes) := do
  let (raw, reader) ← readUInt8 reader
  return (⟨if raw ∈ lockModelIds then raw else lockModelUnknown, raw⟩, reader)

def deviceLogFields (reader : Bytes) : Except BleProtocolError (Bytes × Bytes) := do
  let (length, reader) ← readUInt8 reader
  readBytes length reader

def scanFields (reader : Bytes) : Except BleProtocolError (ScanResult × Bytes) := do
  let (slot, reader) ← readUInt16 reader
  let (raw, reader) ← readUInt8 reader
  return (⟨slot, scanStatus raw⟩, reader)

def lockStatusFields (reader : Bytes) : Except BleProtocolError (LockEvent × Bytes) := do
  let (slot, reader) ← readUInt16 reader
  let (raw, reader) ← readUInt8 reader
  let state ← requiredMember "LockStateId" [1, 2] raw
  let (raw, reader) ← readUInt8 reader
  let method ← requiredMember "DoorlockMethodId" [0, 1, 2, 3, 4, 5] raw
  return (.lockStatus slot state method, reader)

def userAddedFields (reader : Bytes) : Except BleProtocolError (LockEvent × Bytes) := do
  let (slot, reader) ← readUInt16 reader
  let (raw, reader) ← readUInt8 reader
  let status ← requiredMember "UserAddedStatusId" [0, 1, 2, 3, 4] raw
  return (.userAdded slot status, reader)

/-! The parsers. -/

def parseUserAuthFinalize := parseFields .userAuthFinalize readUInt8
def parseDeviceIdGet := parseBytes .deviceIdGet deviceIdLength
def parseBattInfo := parseFields .battInfoGet battInfoFields
/-- With the raw byte, which `parseDeviceModel` leaves out. -/
def parseDeviceModelRaw := parseFields .deviceModelGet deviceModelFields
def parseDeviceLog := parseFields .deviceLogGet deviceLogFields
def parseFingerprintScan := parseFields .fingerprintScan scanFields
def parseScanRfidCode := parseFields .scanRfidCode scanFields

/-- `STATUS_ONLY_RESPONSES`. -/
def statusOnlyResponses : List CommandId :=
  [.ekeyOperate, .deviceIdSet, .deviceNameSet, .currentTimeSet, .pinCodeSet, .pinCodeClear, .rfidCodeClear,
    .fingerprintClear, .volumeSet, .autoLockSet, .keypadEnableSet, .factoryResetModule]

def checkStatusOnly (r : Response) (expected : CommandId) : Except BleError Unit := do
  if expected ∉ statusOnlyResponses then
    throw (.validation ⟨s!"{responseName (expectedResponseId expected)} carries a payload; use its parser"⟩)
  let _ ← responseReader r (expectedResponseId expected)

/-! The forms of the fields. -/

def NumberForm (size value : Nat) (w : Bytes) : Prop := value < 2 ^ (8 * size) ∧ w = toLittleEndian value size

def BytesForm (count : Nat) (raw w : Bytes) : Prop := w = raw ∧ raw.length = count

/-- A NUL ends the text, and the rest of the field does not count. -/
def StringForm (size : Nat) (value : String) (w : Bytes) : Prop :=
  w.length = size ∧ ∃ chars filler, w = chars ++ 0 :: filler ∧ 0 ∉ chars ∧
    value = String.ofList (chars.map decodeAsciiByte)

theorem reads_take (count : Nat) : Reads (take count) (BytesForm count) := by
  intro b raw rest
  rw [take_eq_ok]
  constructor
  · rintro ⟨rfl, hlength⟩
    exact ⟨raw, ⟨rfl, hlength⟩, rfl⟩
  · rintro ⟨w, ⟨rfl, hlength⟩, rfl⟩
    exact ⟨rfl, hlength⟩

theorem number_form_iff {size value : Nat} {w : Bytes} :
    (∃ raw, BytesForm size raw w ∧ ofLittleEndian raw = value) ↔ NumberForm size value w := by
  constructor
  · rintro ⟨raw, ⟨rfl, hlength⟩, rfl⟩
    refine ⟨hlength ▸ ofLittleEndian_lt _, ?_⟩
    rw [← hlength, toLittleEndian_ofLittleEndian]
  · rintro ⟨hlt, rfl⟩
    exact ⟨_, ⟨rfl, length_toLittleEndian _ _⟩, ofLittleEndian_toLittleEndian hlt⟩

theorem reads_number (size : Nat) :
    Reads (fun b => do let (raw, rest) ← take size b; return (ofLittleEndian raw, rest) :
      Bytes → Except BleProtocolError (Nat × Bytes)) (NumberForm size) := by
  have hchecked := (reads_take size).check
    (f := fun raw => (.ok (ofLittleEndian raw) : Except BleProtocolError Nat))
  refine hchecked.congr fun value w => ?_
  simp only [Except.ok.injEq]
  exact number_form_iff

theorem reads_uint8 : Reads readUInt8 (NumberForm 1) := reads_number 1

theorem reads_uint16 : Reads readUInt16 (NumberForm 2) := reads_number 2

theorem reads_uint32 : Reads readUInt32 (NumberForm 4) := reads_number 4

theorem takeWhile_eq_of_stop {chars filler : Bytes} (h : 0 ∉ chars) :
    (chars ++ 0 :: filler).takeWhile (· != 0) = chars := by
  induction chars with
  | nil => rfl
  | cons c chars ih =>
    have hc : c ≠ 0 := fun heq => h (heq ▸ List.mem_cons_self)
    have htail : 0 ∉ chars := fun hmem => h (List.mem_cons_of_mem c hmem)
    rw [List.cons_append, List.takeWhile_cons, if_pos (by simpa using hc), ih htail]

theorem string_form_iff {size : Nat} {raw : Bytes} {value : String} (hlength : raw.length = size) :
    (raw.contains 0 = true ∧ String.ofList ((raw.takeWhile (· != 0)).map decodeAsciiByte) = value) ↔
      StringForm size value raw := by
  constructor
  · rintro ⟨hnul, rfl⟩
    obtain ⟨chars, filler, hraw, hchars⟩ := List.eq_append_cons_of_mem (List.contains_iff_mem.mp hnul)
    refine ⟨hlength, chars, filler, hraw, hchars, ?_⟩
    rw [hraw, takeWhile_eq_of_stop hchars]
  · rintro ⟨-, chars, filler, rfl, hchars, rfl⟩
    rw [takeWhile_eq_of_stop hchars]
    exact ⟨by simp, rfl⟩

theorem reads_string (size : Nat) : Reads (readString size) (StringForm size) := by
  intro b value rest
  unfold readString
  constructor
  · intro h
    obtain ⟨⟨raw, more⟩, htake, h⟩ := bind_eq_ok.mp h
    obtain ⟨hb, hlength⟩ := take_eq_ok.mp htake
    by_cases hnul : raw.contains 0 = true
    · simp only [hnul, if_true] at h
      cases h
      exact ⟨raw, (string_form_iff hlength).mp ⟨hnul, rfl⟩, hb⟩
    · simp only [hnul] at h
      cases h
  · rintro ⟨w, hform, rfl⟩
    obtain ⟨hnul, hvalue⟩ := (string_form_iff hform.1).mpr hform
    have htake : take size (w ++ rest) = .ok (w, rest) := take_eq_ok.mpr ⟨rfl, hform.1⟩
    rw [htake, ok_bind]
    simp only [hnul, if_true, pure_eq_ok, Except.ok.injEq, Prod.mk.injEq, and_true]
    exact hvalue

end OnestiLock
