import OnestiLock.Commands
import OnestiLock.Responses

/-! The lock's clock in both directions (`to_lock_time`, `from_lock_time` and
`CurrentTime.moment`), up to the last date a datetime can name. -/

namespace OnestiLock

/-- The moment on the UTC time line, in microseconds since year 1. -/
def DateTime.utc (moment : DateTime) : Option Int :=
  match moment.zone with
  | .offset micros _ => some (moment.micros - micros)
  | .naive | .floating => none

theorem zeroOffset_within : -86400000000 < (0 : Int) ∧ (0 : Int) < 86400000000 := by omega

/-- Arithmetic on a UTC datetime that leaves year 1 to 9999 raises. -/
def fromLockTime (minutes : Int) : Except Exn DateTime :=
  let micros := lockTimeEpoch + minutes * microsPerMinute
  if h : micros.toNat < datetimeSpan ∧ 0 ≤ micros then
    .ok ⟨micros.toNat, .offset 0 zeroOffset_within, h.1⟩
  else .error (.other "OverflowError")

/-- The last whole minute of year 9999. -/
def lastLockTime : Int := 4195496159

theorem fromLockTime_ok {minutes : Int} (hzero : 0 ≤ minutes) (hlast : minutes ≤ lastLockTime) :
    ∃ moment, fromLockTime minutes = .ok moment ∧ moment.zone = .offset 0 zeroOffset_within ∧
      moment.utc = some (lockTimeEpoch + minutes * microsPerMinute) := by
  have hnonneg : 0 ≤ lockTimeEpoch + minutes * microsPerMinute := by
    unfold lockTimeEpoch microsPerMinute
    omega
  have hlt : (lockTimeEpoch + minutes * microsPerMinute).toNat < datetimeSpan := by
    unfold lastLockTime at hlast
    unfold lockTimeEpoch microsPerMinute datetimeSpan
    omega
  have hcast : ((lockTimeEpoch + minutes * microsPerMinute).toNat : Int) =
      lockTimeEpoch + minutes * microsPerMinute := Int.toNat_of_nonneg hnonneg
  refine ⟨⟨_, .offset 0 zeroOffset_within, hlt⟩, dif_pos ⟨hlt, hnonneg⟩, rfl, ?_⟩
  simp only [DateTime.utc, hcast, Int.sub_zero]

theorem fromLockTime_overflow {minutes : Int} (h : lastLockTime < minutes) :
    fromLockTime minutes = .error (.other "OverflowError") := by
  have hout : ¬ ((lockTimeEpoch + minutes * microsPerMinute).toNat < datetimeSpan ∧
      0 ≤ lockTimeEpoch + minutes * microsPerMinute) := by
    unfold lastLockTime at h
    unfold lockTimeEpoch microsPerMinute datetimeSpan
    omega
  exact dif_neg hout

theorem toLockTime_of_utc {moment : DateTime} {utc : Int} (hutc : moment.utc = some utc)
    (hepoch : lockTimeEpoch ≤ utc) : toLockTime moment = .ok ((utc - lockTimeEpoch) / microsPerMinute) := by
  unfold DateTime.utc at hutc
  unfold toLockTime
  cases hzone : moment.zone with
  | naive =>
    rw [hzone] at hutc
    cases hutc
  | floating =>
    rw [hzone] at hutc
    cases hutc
  | offset micros within =>
    rw [hzone] at hutc
    have heq : (moment.micros : Int) - micros = utc := Option.some.inj hutc
    have hge : ¬ utc < lockTimeEpoch := by omega
    simp only [heq, if_neg hge]

theorem toLockTime_fromLockTime {minutes : Int} (hzero : 0 ≤ minutes) :
    (∃ moment, fromLockTime minutes = .ok moment ∧ toLockTime moment = .ok minutes) ↔
      minutes ≤ lastLockTime := by
  constructor
  · intro h
    obtain ⟨moment, hfrom, -⟩ := h
    by_contra hgt
    rw [fromLockTime_overflow (by omega)] at hfrom
    cases hfrom
  · intro hlast
    obtain ⟨moment, hfrom, -, hutc⟩ := fromLockTime_ok hzero hlast
    have hepoch : lockTimeEpoch ≤ lockTimeEpoch + minutes * microsPerMinute := by
      unfold microsPerMinute
      omega
    have hback : (lockTimeEpoch + minutes * microsPerMinute - lockTimeEpoch) / microsPerMinute = minutes := by
      unfold microsPerMinute
      omega
    exact ⟨moment, hfrom, by rw [toLockTime_of_utc hutc hepoch, hback]⟩

/-- The whole minute since the epoch that a moment lies in. -/
def wholeMinute (utc : Int) : Int :=
  lockTimeEpoch + (utc - lockTimeEpoch) / microsPerMinute * microsPerMinute

theorem fromLockTime_toLockTime {utc : Int} (hepoch : lockTimeEpoch ≤ utc) :
    (∃ back, fromLockTime ((utc - lockTimeEpoch) / microsPerMinute) = .ok back ∧
      back.zone = .offset 0 zeroOffset_within ∧ back.utc = some (wholeMinute utc)) ↔
      utc < datetimeSpan := by
  have hzero : 0 ≤ (utc - lockTimeEpoch) / microsPerMinute := by
    unfold microsPerMinute
    omega
  have hlast : (utc - lockTimeEpoch) / microsPerMinute ≤ lastLockTime ↔ utc < datetimeSpan := by
    unfold lastLockTime lockTimeEpoch microsPerMinute datetimeSpan
    omega
  constructor
  · intro h
    obtain ⟨back, hfrom, -⟩ := h
    by_contra hge
    have hgt : lastLockTime < (utc - lockTimeEpoch) / microsPerMinute := by
      have hnot := fun hle => hge (hlast.mp hle)
      omega
    rw [fromLockTime_overflow hgt] at hfrom
    cases hfrom
  · intro hlt
    exact fromLockTime_ok hzero (hlast.mpr hlt)

/-! What goes over the wire. -/

/-- The answer to CurrentTimeGet of a lock whose clock shows `minutes`. -/
def currentTimeAnswer (commandRef minutes : Nat) : Response :=
  ⟨expectedResponseId .currentTimeGet, commandRef, statusSuccess, toLittleEndian minutes 4⟩

theorem parseCurrentTime_answer {minutes : Nat} (h : minutes < 2 ^ 32) (commandRef : Nat) :
    parseCurrentTime (currentTimeAnswer commandRef minutes) = .ok minutes := by
  have hreader : responseReader (currentTimeAnswer commandRef minutes)
      (expectedResponseId .currentTimeGet) = .ok (toLittleEndian minutes 4) := responseReader_ok rfl rfl
  have htake := take_append (toLittleEndian minutes 4) []
  have hvalue : ofLittleEndian (toLittleEndian minutes 4) = minutes :=
    ofLittleEndian_toLittleEndian (by simpa using h)
  rw [length_toLittleEndian, List.append_nil] at htake
  rw [parseCurrentTime, hreader]
  simp [readUInt32, htake, hvalue, liftProtocol]

/-- Lock time and the clock agree both ways exactly up to the last minute that
`datetime` can hold. -/
theorem lockTime_roundTrip_iff (minutes commandRef : Nat) (moment : DateTime) (utc : Int) :
    (minutes < 2 ^ 32 →
      parseCurrentTime (currentTimeAnswer commandRef minutes) = .ok minutes ∧
      ((∃ moment, fromLockTime minutes = .ok moment ∧ toLockTime moment = .ok (minutes : Int)) ↔
        (minutes : Int) ≤ lastLockTime)) ∧
    (moment.utc = some utc → lockTimeEpoch ≤ utc →
      ∃ time command, toLockTime moment = .ok time ∧ currentTimeSet time = .ok command ∧
        ((∃ back, fromLockTime time = .ok back ∧ back.zone = .offset 0 zeroOffset_within ∧
          back.utc = some (wholeMinute utc)) ↔ utc < datetimeSpan)) := by
  constructor
  · intro hlt
    exact ⟨parseCurrentTime_answer hlt commandRef, toLockTime_fromLockTime (Int.natCast_nonneg minutes)⟩
  · intro hutc hepoch
    have htime := toLockTime_of_utc hutc hepoch
    have hcommand := currentTimeSet_ok (toLockTime_lt htime)
    exact ⟨_, _, htime, hcommand, fromLockTime_toLockTime hepoch⟩

/-- The largest clock a lock can answer with names no datetime. -/
theorem lockTime_roundTrip_overflow :
    parseCurrentTime (currentTimeAnswer 1 4294967295) = .ok 4294967295 ∧
      fromLockTime 4294967295 = .error (.other "OverflowError") :=
  ⟨parseCurrentTime_answer (by omega) 1, fromLockTime_overflow (by decide)⟩

end OnestiLock
