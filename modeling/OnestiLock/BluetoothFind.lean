import OnestiLock.Errors
import OnestiLock.Program
import OnestiLock.Streams
import OnestiLock.Text

/-! A lock's advertisement (`protocol/advertisement.py`), and the search for the
wanted lock among what Home Assistant hears (`bluetooth.py`). SHA-1 and the upper
case of an address are parameters. -/

namespace OnestiLock

open Python

/-! `protocol/advertisement.py` -/

def deviceIdSeedLength : Nat := 2

def defaultDeviceIdSeed : Bytes := [0, 0]

/-- The two fields of the 0xFD00 service data. -/
structure Advertisement where
  seed : Bytes
  identifier : Bytes
  deriving DecidableEq, Repr

namespace Advertisement

def enrolled (a : Advertisement) : Bool := a.seed != defaultDeviceIdSeed

/-- Whether this is the enrolled lock with that device id. -/
def matchesDevice (sha1 : Bytes → Bytes) (a : Advertisement) (deviceId : Bytes) : Except BleValidationError Bool := do
  require (deviceId.length = deviceIdLength) s!"Device id must be {deviceIdLength} bytes, got {deviceId.length}"
  if a.enrolled then return (sha1 (a.seed ++ deviceId)).take deviceIdLength == a.identifier
  else return false

end Advertisement

def parseAdvertisement (serviceData : Bytes) : Except BleProtocolError Advertisement :=
  let needed := deviceIdSeedLength + deviceIdLength
  if serviceData.length < needed then
    .error ⟨s!"Advertisement service data is {serviceData.length} byte(s), needs {needed}"⟩
  else do
    let (seed, rest) ← readBytes deviceIdSeedLength serviceData
    let (identifier, _) ← readBytes deviceIdLength rest
    return ⟨seed, identifier⟩

/-! `bluetooth.py` -/

namespace Bluetooth

/-- What Home Assistant passes on of an advertisement; the service data is that
under the lock's UUID. -/
structure ServiceInfo where
  address : Text
  name : Option Text
  rssi : Int
  serviceData : Option Bytes
  deriving DecidableEq, Repr

structure FoundLock where
  address : Text
  name : Text
  rssi : Int
  advertisement : Advertisement
  deriving DecidableEq, Repr

/-- The lock that is looked for: the enrolled one with the device id, or any
factory-reset one, at an address if one is given. -/
structure Wanted where
  deviceId : Option Bytes
  address : Option Text

def lockAdvertisement (info : ServiceInfo) : Option Advertisement :=
  info.serviceData.bind (fun data => (parseAdvertisement data).toOption)

def found (info : ServiceInfo) (advertisement : Advertisement) : FoundLock where
  address := info.address
  name := if (info.name.getD []).isEmpty then info.address else info.name.getD []
  rssi := info.rssi
  advertisement := advertisement

/-- What reaches a caller: an error of the library, or any other exception. A
plain `BleError` is given by its text. -/
inductive Raised
  | validation (e : BleValidationError)
  | timeout (message : Text)
  | disconnected (message : Text)
  | ble (message : Text)
  | other (e : Exn)
  deriving DecidableEq, Repr

section

variable (sha1 : Bytes → Bytes) (upper : Text → Text) (wanted : Wanted)

def isWanted (advertisement : Advertisement) : Except BleValidationError Bool :=
  match wanted.deviceId with
  | none => .ok (!advertisement.enrolled)
  | some deviceId => advertisement.matchesDevice sha1 deviceId

/-- `_same_address` of the address asked for, if any. -/
def sameAddress (info : ServiceInfo) : Bool :=
  match wanted.address with
  | none => true
  | some address => upper info.address == upper address

/-- One advertisement, looked at: the lock it shows if it is the wanted one. -/
def lookAt (info : ServiceInfo) : Except BleValidationError (Option FoundLock) :=
  if sameAddress upper wanted info then
    match lockAdvertisement info with
    | none => .ok none
    | some advertisement => do
      if ← isWanted sha1 wanted advertisement then return some (found info advertisement)
      else return none
  else .ok none

/-- `async_discovered_locks`, of the connectable advertisements. -/
def discoveredLocks : List ServiceInfo → Except BleValidationError (List FoundLock)
  | [] => .ok []
  | info :: infos => do
    let first ← lookAt sha1 upper wanted info
    let rest ← discoveredLocks infos
    return first.toList ++ rest

/-- `_advertised`: the future keeps the first result; Home Assistant catches what
a callback raises. -/
def advertised (result : Option FoundLock) (info : ServiceInfo) : Option FoundLock :=
  match result with
  | some found => some found
  | none => ((lookAt sha1 upper wanted info).toOption).bind id

/-- `_describe`. -/
def describe : Text :=
  let what := if wanted.deviceId.isSome then text "the enrolled lock" else text "a factory-reset lock"
  match wanted.address with
  | some address => what ++ text " at " ++ address
  | none => what

/-- How waiting for an advertisement ends, after those that were heard: the future
is set, time is up, or the task is cancelled. -/
inductive Waited
  | set (heard : List ServiceInfo) (lock : FoundLock)
    (h : heard.foldl (advertised sha1 upper wanted) none = some lock)
  | timedOut (heard : List ServiceInfo)
  | cancelled (heard : List ServiceInfo)

end

/-! What it means for an advertisement to show the wanted lock. -/

theorem parseAdvertisement_eq_ok {data : Bytes} {advertisement : Advertisement} :
    parseAdvertisement data = .ok advertisement ↔
      ∃ rest, data = advertisement.seed ++ advertisement.identifier ++ rest ∧
        advertisement.seed.length = deviceIdSeedLength ∧ advertisement.identifier.length = deviceIdLength := by
  constructor
  · intro h
    unfold parseAdvertisement at h
    simp only [] at h
    split at h
    · cases h
    · obtain ⟨⟨seed, rest⟩, hseed, h⟩ := bind_eq_ok.mp h
      obtain ⟨⟨identifier, tail⟩, hidentifier, h⟩ := bind_eq_ok.mp h
      cases h
      obtain ⟨hdata, hlen⟩ := take_eq_ok.mp hseed
      obtain ⟨hrest, hlen'⟩ := take_eq_ok.mp hidentifier
      refine ⟨tail, ?_, hlen, hlen'⟩
      have hrest : rest = identifier ++ tail := hrest
      rw [hdata, hrest, List.append_assoc]
  · rintro ⟨rest, rfl, hseed, hidentifier⟩
    have hlong : ¬ (advertisement.seed ++ advertisement.identifier ++ rest).length <
        deviceIdSeedLength + deviceIdLength := by
      simp only [List.length_append]
      omega
    unfold parseAdvertisement
    rw [if_neg hlong, List.append_assoc]
    have hfirst : readBytes deviceIdSeedLength (advertisement.seed ++ (advertisement.identifier ++ rest)) =
        .ok (advertisement.seed, advertisement.identifier ++ rest) := take_eq_ok.mpr ⟨rfl, hseed⟩
    have hsecond : readBytes deviceIdLength (advertisement.identifier ++ rest) =
        .ok (advertisement.identifier, rest) := take_eq_ok.mpr ⟨rfl, hidentifier⟩
    simp only [hfirst, hsecond, ok_bind, pure_eq_ok]

variable {sha1 : Bytes → Bytes} {upper : Text → Text} {wanted : Wanted}

/-- The service data begins with a seed and an identifier that are those of the
wanted lock, at the wanted address. -/
structure Shows (sha1 : Bytes → Bytes) (upper : Text → Text) (wanted : Wanted) (info : ServiceInfo)
    (lock : FoundLock) : Prop where
  address : ∀ address, wanted.address = some address → upper info.address = upper address
  data : ∃ rest, info.serviceData = some (lock.advertisement.seed ++ lock.advertisement.identifier ++ rest)
  seed : lock.advertisement.seed.length = deviceIdSeedLength
  identifier : lock.advertisement.identifier.length = deviceIdLength
  factory : wanted.deviceId = none → lock.advertisement.seed = defaultDeviceIdSeed
  enrolled : ∀ deviceId, wanted.deviceId = some deviceId → deviceId.length = deviceIdLength ∧
    lock.advertisement.seed ≠ defaultDeviceIdSeed ∧
    (sha1 (lock.advertisement.seed ++ deviceId)).take deviceIdLength = lock.advertisement.identifier
  heard : lock = found info lock.advertisement

theorem isWanted_eq_true {advertisement : Advertisement} :
    isWanted sha1 wanted advertisement = .ok true ↔
      (wanted.deviceId = none → advertisement.seed = defaultDeviceIdSeed) ∧
      ∀ deviceId, wanted.deviceId = some deviceId → deviceId.length = deviceIdLength ∧
        advertisement.seed ≠ defaultDeviceIdSeed ∧
        (sha1 (advertisement.seed ++ deviceId)).take deviceIdLength = advertisement.identifier := by
  unfold isWanted
  cases hid : wanted.deviceId with
  | none => simp [Advertisement.enrolled]
  | some deviceId =>
    by_cases hlen : deviceId.length = deviceIdLength
    · by_cases hseed : advertisement.seed = defaultDeviceIdSeed
      · simp [Advertisement.matchesDevice, Advertisement.enrolled, require, hlen, hseed]
      · simp [Advertisement.matchesDevice, Advertisement.enrolled, require, hlen, hseed]
    · simp [Advertisement.matchesDevice, require, hlen]

theorem sameAddress_eq_true {info : ServiceInfo} :
    sameAddress upper wanted info = true ↔
      ∀ address, wanted.address = some address → upper info.address = upper address := by
  unfold sameAddress
  cases wanted.address <;> simp

theorem lockAdvertisement_eq_some {info : ServiceInfo} {advertisement : Advertisement} :
    lockAdvertisement info = some advertisement ↔
      ∃ data, info.serviceData = some data ∧ parseAdvertisement data = .ok advertisement := by
  unfold lockAdvertisement
  rw [Option.bind_eq_some_iff]
  constructor
  · rintro ⟨data, hdata, h⟩
    refine ⟨data, hdata, ?_⟩
    cases hparse : parseAdvertisement data with
    | error e => simp [hparse, Except.toOption] at h
    | ok parsed => simpa [hparse, Except.toOption] using h
  · rintro ⟨data, hdata, h⟩
    exact ⟨data, hdata, by rw [h]; rfl⟩

theorem lookAt_eq_some {info : ServiceInfo} {lock : FoundLock} :
    lookAt sha1 upper wanted info = .ok (some lock) ↔ Shows sha1 upper wanted info lock := by
  constructor
  · intro h
    unfold lookAt at h
    split at h
    case isFalse => cases h
    case isTrue haddress =>
      split at h
      case h_1 => cases h
      case h_2 advertisement hadvertisement =>
        obtain ⟨wants, hwants, h⟩ := bind_eq_ok.mp h
        cases wants with
        | false => cases h
        | true =>
          cases h
          obtain ⟨data, hdata, hparse⟩ := lockAdvertisement_eq_some.mp hadvertisement
          obtain ⟨rest, hrest, hseed, hidentifier⟩ := parseAdvertisement_eq_ok.mp hparse
          obtain ⟨hfactory, henrolled⟩ := isWanted_eq_true.mp hwants
          exact ⟨sameAddress_eq_true.mp haddress, ⟨rest, hrest ▸ hdata⟩, hseed, hidentifier, hfactory, henrolled,
            rfl⟩
  · intro h
    obtain ⟨rest, hrest⟩ := h.data
    have hparse : parseAdvertisement (lock.advertisement.seed ++ lock.advertisement.identifier ++ rest) =
        .ok lock.advertisement := parseAdvertisement_eq_ok.mpr ⟨rest, rfl, h.seed, h.identifier⟩
    have hwants := isWanted_eq_true.mpr ⟨h.factory, h.enrolled⟩
    unfold lookAt
    rw [if_pos (sameAddress_eq_true.mpr h.address), lockAdvertisement_eq_some.mpr ⟨_, hrest, hparse⟩]
    simp only [hwants, ok_bind, if_true, pure_eq_ok, ← h.heard]

/-- Nothing the advertisement shows is wanted. -/
def Blank (sha1 : Bytes → Bytes) (upper : Text → Text) (wanted : Wanted) (info : ServiceInfo) : Prop :=
  ∀ lock, ¬ Shows sha1 upper wanted info lock

theorem blank_of_lookAt {info : ServiceInfo} (h : lookAt sha1 upper wanted info = .ok none) :
    Blank sha1 upper wanted info := by
  intro lock hshows
  rw [lookAt_eq_some.mpr hshows] at h
  cases h

theorem discoveredLocks_cons {info : ServiceInfo} {infos : List ServiceInfo} {locks : List FoundLock} :
    discoveredLocks sha1 upper wanted (info :: infos) = .ok locks ↔
      ∃ first rest, lookAt sha1 upper wanted info = .ok first ∧
        discoveredLocks sha1 upper wanted infos = .ok rest ∧ first.toList ++ rest = locks := by
  rw [discoveredLocks, bind_eq_ok]
  constructor
  · rintro ⟨first, hfirst, h⟩
    obtain ⟨rest, hrest, h⟩ := bind_eq_ok.mp h
    exact ⟨first, rest, hfirst, hrest, Except.ok.inj h⟩
  · rintro ⟨first, rest, hfirst, hrest, h⟩
    exact ⟨first, hfirst, bind_eq_ok.mpr ⟨rest, hrest, congrArg _ h⟩⟩

theorem discoveredLocks_eq_nil {infos : List ServiceInfo} (h : discoveredLocks sha1 upper wanted infos = .ok []) :
    ∀ info ∈ infos, Blank sha1 upper wanted info := by
  induction infos with
  | nil => simp
  | cons info infos ih =>
    obtain ⟨first, rest, hfirst, hrest, heq⟩ := discoveredLocks_cons.mp h
    obtain ⟨hnone, rfl⟩ := List.append_eq_nil_iff.mp heq
    have hnone : first = none := by simpa using hnone
    subst hnone
    exact List.forall_mem_cons.mpr ⟨blank_of_lookAt hfirst, ih hrest⟩

/-- The advertisements known show one wanted lock, and no more. -/
theorem discoveredLocks_eq_singleton {infos : List ServiceInfo} {lock : FoundLock}
    (h : discoveredLocks sha1 upper wanted infos = .ok [lock]) :
    ∃ before info after, infos = before ++ info :: after ∧ Shows sha1 upper wanted info lock ∧
      ∀ other ∈ before ++ after, Blank sha1 upper wanted other := by
  induction infos with
  | nil => cases h
  | cons info infos ih =>
    obtain ⟨first, rest, hfirst, hrest, heq⟩ := discoveredLocks_cons.mp h
    cases first with
    | none =>
      have heq : rest = [lock] := heq
      subst heq
      obtain ⟨before, shown, after, rfl, hshows, hothers⟩ := ih hrest
      refine ⟨info :: before, shown, after, rfl, hshows, ?_⟩
      exact List.forall_mem_cons.mpr ⟨blank_of_lookAt hfirst, hothers⟩
    | some found =>
      obtain ⟨rfl, rfl⟩ := List.cons.inj heq
      exact ⟨[], info, infos, rfl, lookAt_eq_some.mp hfirst, discoveredLocks_eq_nil hrest⟩

theorem advertised_none {info : ServiceInfo} {lock : FoundLock} :
    advertised sha1 upper wanted none info = some lock ↔ Shows sha1 upper wanted info lock := by
  rw [← lookAt_eq_some, advertised]
  cases hlook : lookAt sha1 upper wanted info with
  | error e => simp [Except.toOption]
  | ok first => simp [Except.toOption]

theorem foldl_advertised_some (heard : List ServiceInfo) (lock : FoundLock) :
    heard.foldl (advertised sha1 upper wanted) (some lock) = some lock := by
  induction heard with
  | nil => rfl
  | cons info heard ih => exact ih

/-- The future holds the first lock wanted that was heard. -/
theorem foldl_advertised {heard : List ServiceInfo} {lock : FoundLock}
    (h : heard.foldl (advertised sha1 upper wanted) none = some lock) :
    ∃ before info after, heard = before ++ info :: after ∧ Shows sha1 upper wanted info lock ∧
      ∀ other ∈ before, Blank sha1 upper wanted other := by
  induction heard with
  | nil => cases h
  | cons info heard ih =>
    rw [List.foldl_cons] at h
    cases hfirst : advertised sha1 upper wanted none info with
    | none =>
      rw [hfirst] at h
      obtain ⟨before, shown, after, rfl, hshows, hothers⟩ := ih h
      refine ⟨info :: before, shown, after, rfl, hshows, List.forall_mem_cons.mpr ⟨?_, hothers⟩⟩
      intro other hother
      rw [advertised_none.mpr hother] at hfirst
      cases hfirst
    | some found =>
      rw [hfirst, foldl_advertised_some] at h
      cases h
      exact ⟨[], info, heard, rfl, advertised_none.mp hfirst, by simp⟩

end Bluetooth

end OnestiLock
