import OnestiLock.SlotStore

/-! Decoding the operation event of the Door Lock cluster, and which locks no
person can be credited with (`events.py`). -/

namespace OnestiLock

inductive ActivityAction
  | lock | unlock | unknown
  deriving DecidableEq, Repr

inductive ActivitySource
  | zigbee | keypad | fingerprint | rfid | unattributed | auto | unknown
  deriving DecidableEq, Repr

namespace ActivityAction

/-- `ACTION_MAP`. -/
def ofByte : Nat → ActivityAction
  | 0x01 => lock
  | 0x02 => unlock
  | _ => unknown

end ActivityAction

namespace ActivitySource

/-- `SOURCE_MAP`. -/
def ofByte : Nat → ActivitySource
  | 0x00 => zigbee
  | 0x02 => keypad
  | 0x03 => fingerprint
  | 0x04 => rfid
  | 0x05 => unattributed
  | 0x0A => auto
  | _ => unknown

/-- `CREDENTIAL_SOURCES`. -/
def credential : ActivitySource → Bool
  | keypad | fingerprint | rfid => true
  | zigbee | unattributed | auto | unknown => false

end ActivitySource

structure OperationEvent where
  userSlot : Option Nat
  userName : Option String
  action : ActivityAction
  source : ActivitySource
  deriving DecidableEq, Repr

def operationEventMax : Int := 0xFFFFFFFF

def decodeOperationEvent (slotName : Nat → String) (val : Int) : Option OperationEvent :=
  if 0 ≤ val ∧ val ≤ operationEventMax then
    let bits := val.toNat
    let slot := bits &&& 0xFFFF
    let action := ActivityAction.ofByte ((bits >>> 16) &&& 0xFF)
    let source := ActivitySource.ofByte ((bits >>> 24) &&& 0xFF)
    let userSlot := if slot = 0 ∧ source.credential = false then none else some slot
    some ⟨userSlot, userSlot.map slotName, action, source⟩
  else none

namespace OperationEvent

def anonymousLock (e : OperationEvent) : Bool := e.action == .lock && e.userSlot.isNone

/-- `is_system_lock`. -/
def isSystemLock (e : OperationEvent) (wakeEchoPending : Bool) : Bool :=
  match e.source with
  | .auto => true
  | .unattributed => e.anonymousLock
  | .zigbee => e.anonymousLock && wakeEchoPending
  | .keypad | .fingerprint | .rfid | .unknown => false

end OperationEvent

/-- The fallback texts of `get_slot_name`, with the slot put into the second. In
every translation `str.format` finds the one field `{slot}`, without a format. -/
def slotNameFallback (strings : String → Option String) (slot : Int) : String :=
  if slot = 0 then (strings "slot_fallback_master").getD "Master"
  else ((strings "slot_fallback_name").getD "Slot {slot}").replace "{slot}" (toString slot)

def getSlotName (strings : String → Option String) (slots : Slots) (slot : Int) : String :=
  let name := ((slots (slotKey slot)).map (fun s => s.name)).getD ""
  if name ≠ "" then name else slotNameFallback strings slot

end OnestiLock
