import OnestiLock.Command

/-! Commands the session and the enrollment send (`ble/protocol/commands.py`),
and the lock's clock. -/

namespace OnestiLock

def checkLength (value : Bytes) (name : String) (length : Nat) : Except BleValidationError Unit :=
  require (value.length = length)
    s!"Invalid {name}, expected length {length}, but got length {value.length}"

def exchangeKeyPubM (publicKey : Bytes) : Except BleValidationError CommandPayload := do
  checkLength publicKey "PubM" publicKeyLength
  return ⟨.exchangeKeyPubM, publicKey⟩

def userAuthBegin (userId : Int) (deviceId : Bytes) : Except BleValidationError CommandPayload := do
  checkLength deviceId "DeviceId" deviceIdLength
  return ⟨.userAuthBegin, (← writeUInt8 [] userId) ++ deviceId⟩

def userAuthFinalize (challenge : Bytes) : Except BleValidationError CommandPayload := do
  checkLength challenge "Challenge" challengeLength
  return ⟨.userAuthFinalize, challenge⟩

def userAuthUpdate (userId credentials : Int) (publicKey : Bytes) :
    Except BleValidationError CommandPayload := do
  checkLength publicKey "PublicKey" publicKeyLength
  let buffer ← writeUInt8 [] userId
  let buffer ← writeUInt8 buffer credentials
  return ⟨.userAuthUpdate, buffer ++ publicKey⟩

def deviceIdSet (deviceId : Bytes) : Except BleValidationError CommandPayload := do
  checkLength deviceId "DeviceId" deviceIdLength
  return ⟨.deviceIdSet, deviceId⟩

def deviceNameSet (name : String) : Except BleValidationError CommandPayload := do
  return ⟨.deviceNameSet, ← writeString [] name deviceNameMaxLength⟩

def currentTimeSet (time : Int) : Except BleValidationError CommandPayload := do
  return ⟨.currentTimeSet, ← writeUInt32 [] time⟩

def serverKeyUpdate (serverPublicKey : Bytes) : Except BleValidationError CommandPayload := do
  checkLength serverPublicKey "ServerPublicKey" publicKeyLength
  return ⟨.serverKeyUpdate, serverPublicKey⟩

def deviceModelGet : CommandPayload := ⟨.deviceModelGet, []⟩

/-! The lock's clock. -/

/-- Microseconds from the first day of year 1 to the end of year 9999. -/
def datetimeSpan : Nat := 3652059 * 86400000000

/-- A `tzinfo`: none, one that gives no offset, or an offset of less than a day. -/
inductive TimeZone
  | naive
  | floating
  | offset (micros : Int) (within : -86400000000 < micros ∧ micros < 86400000000)

/-- A Python datetime: its own fields as microseconds since year 1, and its zone. -/
structure DateTime where
  micros : Nat
  zone : TimeZone
  micros_lt : micros < datetimeSpan

/-- 2023-01-01 UTC. -/
def lockTimeEpoch : Int := 738520 * 86400000000

def microsPerMinute : Int := 60000000

/-- Python compares an offset-naive datetime with an aware one by raising. -/
def toLockTime (moment : DateTime) : Except Exn Int :=
  match moment.zone with
  | .naive => .error (.ble (.validation ⟨"Lock time needs a timezone-aware datetime"⟩))
  | .floating => .error (.other "TypeError")
  | .offset micros _ =>
    let utc : Int := moment.micros - micros
    if utc < lockTimeEpoch then
      .error (.ble (.validation ⟨"Lock time cannot be earlier than 2023-01-01 00:00 UTC"⟩))
    else .ok ((utc - lockTimeEpoch) / microsPerMinute)

theorem toLockTime_lt {moment : DateTime} {time : Int} (h : toLockTime moment = .ok time) :
    0 ≤ time ∧ time < 2 ^ 32 := by
  unfold toLockTime at h
  split at h
  · simp at h
  · simp at h
  · rename_i micros hwithin hz
    simp only at h
    split_ifs at h with hlt
    obtain rfl := Except.ok.inj h
    have hm := moment.micros_lt
    simp only [datetimeSpan, lockTimeEpoch, microsPerMinute] at *
    omega

theorem currentTimeSet_ok {time : Int} (h : 0 ≤ time ∧ time < 2 ^ 32) :
    currentTimeSet time = .ok ⟨.currentTimeSet, toLittleEndian time.toNat 4⟩ := by
  have hfits : 0 ≤ time ∧ time < 2 ^ (8 * 4) := h
  simp only [currentTimeSet, writeUInt32, writeUInt, if_pos hfits]
  rfl

/-- The command of the clock step, or what the clock argument is refused with. -/
def clockCommand (moment : DateTime) : Except Exn CommandPayload := do
  validated (currentTimeSet (← toLockTime moment))

/-- A moment the clock step takes: aware, and not before the epoch. -/
def DateTime.Acceptable (moment : DateTime) : Prop :=
  ∃ micros within, moment.zone = .offset micros within ∧ lockTimeEpoch ≤ (moment.micros : Int) - micros

theorem clockCommand_ok_iff {moment : DateTime} :
    (∃ command, clockCommand moment = .ok command) ↔ moment.Acceptable := by
  constructor
  · rintro ⟨command, h⟩
    simp only [clockCommand, bind_eq_ok] at h
    obtain ⟨time, ht, _⟩ := h
    unfold toLockTime at ht
    split at ht
    · simp at ht
    · simp at ht
    · rename_i micros hwithin hz
      simp only at ht
      split_ifs at ht with hlt
      exact ⟨micros, hwithin, hz, Int.not_lt.mp hlt⟩
  · rintro ⟨micros, hwithin, hz, hle⟩
    have ht : toLockTime moment = .ok (((moment.micros : Int) - micros - lockTimeEpoch) / microsPerMinute) := by
      simp [toLockTime, hz, hle]
    have hc := currentTimeSet_ok (toLockTime_lt ht)
    simp only [clockCommand, ht, ok_bind, hc, validated_ok]
    exact ⟨_, rfl⟩

theorem toLockTime_acceptable {moment : DateTime} (h : moment.Acceptable) :
    ∃ time, toLockTime moment = .ok time := by
  obtain ⟨command, hc⟩ := clockCommand_ok_iff.mpr h
  simp only [clockCommand, bind_eq_ok] at hc
  obtain ⟨time, ht, -⟩ := hc
  exact ⟨time, ht⟩

end OnestiLock
