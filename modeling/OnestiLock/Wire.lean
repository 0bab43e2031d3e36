import Mathlib.Algebra.Ring.Int.Defs
import Mathlib.Algebra.Ring.Nat
import Mathlib.Data.Int.Order.Basic
import Mathlib.Data.List.Basic
import Mathlib.Data.Nat.Basic
import Mathlib.Order.Basic

/-! Wire constants and enums of the lock's Bluetooth protocol
(`ble/protocol/const.py` and `ble/client/const.py`). -/

namespace OnestiLock

abbrev Bytes := List UInt8

def attOverhead : Nat := 3
def packetHeaderSize : Nat := 4
def packetPayloadMax : Nat := 255
def firstSequenceNumber : Nat := 1
def commandHeaderSize : Nat := 4
def commandRefMin : Nat := 1
def commandRefMax : Nat := 254
def commandRefStatic : Nat := 16
def commandRefCounterWrap : Nat := 128
def responseHeaderSize : Nat := 4
def blobHeaderSize : Nat := 4
def blobFlagEncrypted : Nat := 0x01
def publicKeyLength : Nat := 64
def challengeLength : Nat := 16
def deviceIdLength : Nat := 6
def deviceNameMaxLength : Nat := 9

/-- `major.minor.bugfix`, compared lexicographically as Python compares tuples. -/
structure FirmwareVersion where
  major : Nat
  minor : Nat
  bugfix : Nat
  deriving DecidableEq, Repr

def FirmwareVersion.lt (v w : FirmwareVersion) : Bool :=
  decide (v.major < w.major) || v.major == w.major &&
    (decide (v.minor < w.minor) || v.minor == w.minor && decide (v.bugfix < w.bugfix))

def minFirmwareAdmin : FirmwareVersion := ⟨4, 7, 90⟩
def minFirmwareConnect : FirmwareVersion := ⟨4, 6, 0⟩

def FirmwareVersion.text (v : FirmwareVersion) : String := s!"{v.major}.{v.minor}.{v.bugfix}"

inductive PacketTypeId
  | single | singleEncrypted | blobStart | blobStream | blobComplete | ack | nac | error
  deriving DecidableEq, Repr

namespace PacketTypeId

def value : PacketTypeId → Nat
  | single => 0x01
  | singleEncrypted => 0x02
  | blobStart => 0x03
  | blobStream => 0x04
  | blobComplete => 0x05
  | ack => 0x06
  | nac => 0x07
  | error => 0xF0

def name : PacketTypeId → String
  | single => "SINGLE"
  | singleEncrypted => "SINGLE_ENCRYPTED"
  | blobStart => "BLOB_START"
  | blobStream => "BLOB_STREAM"
  | blobComplete => "BLOB_COMPLETE"
  | ack => "ACK"
  | nac => "NAC"
  | error => "ERROR"

def all : List PacketTypeId :=
  [single, singleEncrypted, blobStart, blobStream, blobComplete, ack, nac, error]

/-- `PacketTypeId(raw)`, `none` where Python raises `ValueError`. -/
def ofValue? (raw : Nat) : Option PacketTypeId := all.find? (fun t => t.value == raw)

theorem ofValue?_value (t : PacketTypeId) : ofValue? t.value = some t := by
  cases t <;> rfl

theorem value_lt (t : PacketTypeId) : t.value < 256 := by
  cases t <;> decide

end PacketTypeId

inductive CommandId
  | exchangeKeyPubM | ekeyUserAuth | ekeyOperate | ekeyUserAdd | ekeyUserRemove | ekeyUsersList
  | ekeyDeviceInfoGet | ekeyDeviceInfoSet | userAuthBegin | userAuthFinalize | userAuthUpdate
  | deviceIdSet | deviceIdGet | deviceNameSet | deviceNameGet | currentTimeGet | currentTimeSet
  | serverKeyUpdate | deviceLogGet | pinCodeSet | pinCodeClear | rfidCodeClear | scanRfidCode
  | fingerprintScan | fingerprintClear | volumeSet | autoLockSet | keypadEnableSet | battInfoGet
  | deviceModelGet | factoryResetModule
  deriving DecidableEq, Repr

namespace CommandId

def value : CommandId → Nat
  | exchangeKeyPubM => 0x01
  | ekeyUserAuth => 0x17
  | ekeyOperate => 0x18
  | ekeyUserAdd => 0x1B
  | ekeyUserRemove => 0x1C
  | ekeyUsersList => 0x1D
  | ekeyDeviceInfoGet => 0x1F
  | ekeyDeviceInfoSet => 0x20
  | userAuthBegin => 0x22
  | userAuthFinalize => 0x23
  | userAuthUpdate => 0x24
  | deviceIdSet => 0x30
  | deviceIdGet => 0x31
  | deviceNameSet => 0x32
  | deviceNameGet => 0x33
  | currentTimeGet => 0x40
  | currentTimeSet => 0x41
  | serverKeyUpdate => 0x42
  | deviceLogGet => 0x44
  | pinCodeSet => 0x52
  | pinCodeClear => 0x53
  | rfidCodeClear => 0x55
  | scanRfidCode => 0x56
  | fingerprintScan => 0x57
  | fingerprintClear => 0x58
  | volumeSet => 0x5A
  | autoLockSet => 0x5B
  | keypadEnableSet => 0x5C
  | battInfoGet => 0x5D
  | deviceModelGet => 0x62
  | factoryResetModule => 0x70

def name : CommandId → String
  | exchangeKeyPubM => "EXCHANGE_KEY_PUB_M"
  | ekeyUserAuth => "EKEY_USER_AUTH"
  | ekeyOperate => "EKEY_OPERATE"
  | ekeyUserAdd => "EKEY_USER_ADD"
  | ekeyUserRemove => "EKEY_USER_REMOVE"
  | ekeyUsersList => "EKEY_USERS_LIST"
  | ekeyDeviceInfoGet => "EKEY_DEVICE_INFO_GET"
  | ekeyDeviceInfoSet => "EKEY_DEVICE_INFO_SET"
  | userAuthBegin => "USER_AUTH_BEGIN"
  | userAuthFinalize => "USER_AUTH_FINALIZE"
  | userAuthUpdate => "USER_AUTH_UPDATE"
  | deviceIdSet => "DEVICE_ID_SET"
  | deviceIdGet => "DEVICE_ID_GET"
  | deviceNameSet => "DEVICE_NAME_SET"
  | deviceNameGet => "DEVICE_NAME_GET"
  | currentTimeGet => "CURRENT_TIME_GET"
  | currentTimeSet => "CURRENT_TIME_SET"
  | serverKeyUpdate => "SERVER_KEY_UPDATE"
  | deviceLogGet => "DEVICE_LOG_GET"
  | pinCodeSet => "PIN_CODE_SET"
  | pinCodeClear => "PIN_CODE_CLEAR"
  | rfidCodeClear => "RFID_CODE_CLEAR"
  | scanRfidCode => "SCAN_RFID_CODE"
  | fingerprintScan => "FINGERPRINT_SCAN"
  | fingerprintClear => "FINGERPRINT_CLEAR"
  | volumeSet => "VOLUME_SET"
  | autoLockSet => "AUTO_LOCK_SET"
  | keypadEnableSet => "KEYPAD_ENABLE_SET"
  | battInfoGet => "BATT_INFO_GET"
  | deviceModelGet => "DEVICE_MODEL_GET"
  | factoryResetModule => "FACTORY_RESET_MODULE"

def all : List CommandId :=
  [exchangeKeyPubM, ekeyUserAuth, ekeyOperate, ekeyUserAdd, ekeyUserRemove, ekeyUsersList,
    ekeyDeviceInfoGet, ekeyDeviceInfoSet, userAuthBegin, userAuthFinalize, userAuthUpdate,
    deviceIdSet, deviceIdGet, deviceNameSet, deviceNameGet, currentTimeGet, currentTimeSet,
    serverKeyUpdate, deviceLogGet, pinCodeSet, pinCodeClear, rfidCodeClear, scanRfidCode,
    fingerprintScan, fingerprintClear, volumeSet, autoLockSet, keypadEnableSet, battInfoGet,
    deviceModelGet, factoryResetModule]

/-- `CommandId(raw)`, `none` where Python raises `ValueError`. -/
def ofValue? (raw : Nat) : Option CommandId := all.find? (fun c => c.value == raw)

theorem ofValue?_value (c : CommandId) : ofValue? c.value = some c := by
  cases c <;> rfl

theorem value_lt (c : CommandId) : c.value < 256 := by
  cases c <;> decide

end CommandId

/-- The names `ResponseId` gives to response bytes. A response carries the
value of the command it answers; two ids are the lock's own events. -/
def responseName? (raw : Nat) : Option String :=
  if raw = 0x01 then some "EXCHANGE_KEY_PUB_L"
  else if raw = 0x14 then some "USER_ADDED"
  else if raw = 0x60 then some "LOCK_STATUS"
  else (CommandId.ofValue? raw).map CommandId.name

def responseUserAdded : Nat := 0x14
def responseLockStatus : Nat := 0x60

/-- `ResponseStatusId` members that the code compares against. -/
def statusSuccess : Nat := 0
def statusSecurityError : Nat := 10

/-- `LockModelId`, by value; an unlisted byte reads as `UNKNOWN`. -/
def lockModelIds : List Nat := [0, 8, 9, 21, 22, 23, 24, 26, 27, 31, 32, 33, 34, 36, 37]
def lockModelUnknown : Nat := 0

structure ModelFeatures where
  fingerprint : Bool
  keypadEnable : Bool
  masterPin : Bool
  deriving DecidableEq, Repr

/-- `_MODEL_FEATURES`. -/
def modelFeatures (model : Nat) : ModelFeatures :=
  if model = 8 ∨ model = 23 then ⟨true, false, false⟩
  else if model = 33 then ⟨true, true, true⟩
  else if model = 31 ∨ model = 32 ∨ model = 34 ∨ model = 36 ∨ model = 37 then ⟨false, true, true⟩
  else ⟨false, false, false⟩

inductive DeviceFeature
  | availableAlways | available | unavailable | unavailableVersion | unavailableUnknown
  deriving DecidableEq, Repr

def DeviceFeature.isAvailable : DeviceFeature → Bool
  | availableAlways | available => true
  | _ => false

def DeviceFeature.name : DeviceFeature → String
  | availableAlways => "AVAILABLE_ALWAYS"
  | available => "AVAILABLE"
  | unavailable => "UNAVAILABLE"
  | unavailableVersion => "UNAVAILABLE_VERSION"
  | unavailableUnknown => "UNAVAILABLE_UNKNOWN"

/-- Two upper-case hex digits, as the format `02X` writes a byte. -/
def hexByte (n : Nat) : String :=
  let digits := (Nat.toDigits 16 n).map Char.toUpper
  String.ofList (List.replicate (2 - digits.length) '0' ++ digits)

/-- The names of `ResponseStatusId`, by value. -/
def responseStatusNames : List String :=
  ["SUCCESS", "FAILED", "NOT_AVAILABLE", "INTERNAL_ERROR", "PARAMETER_ERROR", "LENGTH_ERROR", "NOT_FOUND_ERROR",
    "NO_MATCH_ERROR", "NOT_SUPPORTED_ERROR", "NOT_VALID_ERROR", "SECURITY_ERROR"]

/-- `_status_name`. -/
def responseStatusName (status : Nat) : String := responseStatusNames[status]?.getD s!"0x{hexByte status}"

end OnestiLock
