import OnestiLock.OptionsFlow
import OnestiLock.RegistryMigration

/-! The services (`services.py`) in a Home Assistant with any number of locks, a
config entry each: which lock a call goes to, what it may write there, and what
its caller is told. -/

namespace OnestiLock

open Python

/-- What a service call ends in an error with; `validation` is a `ServiceValidationError`. -/
structure ServiceError where
  validation : Bool
  message : String
  translationKey : Option String
  placeholders : List (String × String)
  deriving DecidableEq, Repr

namespace ServiceError

def lockNotFound : ServiceError := ⟨true, "No Onesti lock found", some "lock_not_found", []⟩

def lockNotFoundIeee (ieee : String) : ServiceError :=
  ⟨true, s!"No Onesti lock found with IEEE {ieee}", some "lock_not_found_ieee", [("ieee", ieee)]⟩

def invalidSlot (low high : Int) : ServiceError :=
  ⟨true, s!"Slot must be between {low} and {high}", some "invalid_slot",
    [("min", toString low), ("max", toString high)]⟩

def invalidPin (low high : Int) : ServiceError :=
  ⟨true, s!"PIN code must be {low}-{high} digits", some "invalid_pin",
    [("min", toString low), ("max", toString high)]⟩

def multipleLocks (ieees : List String) : ServiceError :=
  let listed := ", ".intercalate (ieees.mergeSort (fun a b => Text.le (text a) (text b)))
  ⟨true, s!"More than one Onesti lock is set up ({listed}). Pick the lock with device_id or ieee.",
    some "multiple_locks", [("ieees", listed)]⟩

def notDelivered (outcome : SendOutcome) : ServiceError :=
  if outcome.delivery = .unreached then
    ⟨false, "Could not reach the lock. Press a button on the lock to wake it and try again.",
      some "lock_unreachable", []⟩
  else
    ⟨false, s!"The lock refused the command (status {outcome.statusText})", outcome.errorKey,
      [("status", outcome.statusText)]⟩

def writeFailed (action : String) (slot : Int) : ServiceError :=
  ⟨false, s!"Unexpected error {action} on slot {slot}, see the log", some "write_failed",
    [("slot", toString slot)]⟩

end ServiceError

/-- The data of a call, as its schema leaves it. -/
inductive ServiceRequest
  | setPin (slot : Int) (name code : String)
  | clearPin (slot : Int)
  | setName (slot : Int) (name : String)
  | clearSlot (slot : Int)
  deriving DecidableEq, Repr

structure ServiceCall where
  request : ServiceRequest
  deviceId : Option String
  ieee : Option String
  deriving DecidableEq, Repr

/-- A config entry of this integration. `ieee` is what its data holds now, and
`addresses` what each coordinator found there. -/
structure HouseEntry where
  ieee : String
  addresses : CoordinatorId → String
  loaded : Bool
  state : EntryState

def HouseEntry.new (ieee : String) (options : Options) : HouseEntry :=
  ⟨ieee, fun _ => "", false, .fresh options⟩

/-- An entry is out of LOADED as soon as its runtime data is gone. -/
def HouseEntry.turn (e : HouseEntry) (turn : Turn) : Option HouseEntry := do
  let state ← e.state.step turn
  some { e with
    addresses := match turn with
      | .build cid => Function.update e.addresses cid e.ieee
      | _ => e.addresses
    loaded := e.loaded && state.entry.runtimeData.isSome
    state := state }

inductive CallEnd
  | returned
  | raised (error : ServiceError)
  | cancelled
  deriving DecidableEq, Repr

/-- What a task is at: a service call in `_write`, one that is over, or a write
of an options dialog. -/
inductive CallState
  | writing (entryId action : String) (op : PinOp)
  | ended (how : CallEnd)
  | dialog (entryId : String) (op : PinOp)
  deriving DecidableEq, Repr

/-- Home Assistant, as far as the services see it. `order` is the order in which
it lists the entries. -/
structure House where
  order : List String
  entries : String → Option HouseEntry
  devices : String → Option (List (String × String))
  calls : JobId → Option CallState
  log : List Text

/-- A loaded entry's coordinator, with what the services read off it. -/
structure Target where
  entryId : String
  cid : CoordinatorId
  ieee : String
  options : Options
  coordinator : Coordinator

/-- The capabilities of a coordinator, as the PIN rules read them. -/
def Target.capabilities (c : Target) : Option ReportedCapabilities :=
  some (fun key =>
    (c.coordinator.lockCapabilities (String.ofList (key.map (fun p => Char.ofNat p.val)))).map .integer)

/-- What `str` knows of Unicode, where it matters here. -/
structure Unicode where
  digits : DigitTable
  lower : String → String

/-- What a handler goes on to once its checks are passed. -/
inductive ServiceWork
  | write (action : String) (op : PinOp)
  | name (slot : Int) (name : String)
  deriving DecidableEq, Repr

/-- A piece of the text of an exception: its own words, or the code it was raised over. -/
inductive Quote
  | said (words : Text)
  | code
  deriving DecidableEq, Repr

def PinOp.code : PinOp → Text
  | .setPin _ _ code => text code
  | .clearPin _ | .clearSlot _ => []

def PinOp.quoted (op : PinOp) (pieces : List Quote) : Text :=
  pieces.flatMap (fun
    | .said words => words
    | .code => op.code)

/-- `_write`, of a write that has returned or was cancelled. -/
def callEnd : Job → Option CallEnd
  | .finished (.returned outcome) =>
    some (if outcome.delivered then .returned else .raised (.notDelivered outcome))
  | .finished .cancelled => some .cancelled
  | _ => none

namespace House

variable (u : Unicode) (h : House)

def target (id : String) : Option Target := do
  let e ← h.entries id
  if e.loaded then
    let cid ← e.state.entry.runtimeData
    let c ← e.state.coordinators cid
    some ⟨id, cid, e.addresses cid, e.state.entry.options, c⟩
  else none

/-- The `runtime_data` of the loaded entries. -/
def coordinators : List Target := h.order.filterMap h.target

def findByIeee (coordinators : List Target) (ieee : String) : Option Target :=
  let wanted := u.lower ieee
  coordinators.find? (fun c => u.lower c.ieee == wanted)

def entryIdForDevice (deviceId : String) : Except ServiceError String :=
  match (h.devices deviceId).bind (List.find? (fun i => i.1 == registryDomain)) with
  | some identifier => .ok identifier.2
  | none => .error .lockNotFound

def getCoordinator (call : ServiceCall) : Except ServiceError Target :=
  let coordinators := h.coordinators
  match call.deviceId.filter (· ≠ ""), call.ieee.filter (· ≠ "") with
  | some deviceId, _ => do
    let entryId ← h.entryIdForDevice deviceId
    match coordinators.find? (fun c => c.entryId == entryId) with
    | some c => .ok c
    | none => .error .lockNotFound
  | none, some ieee =>
    match findByIeee u coordinators ieee with
    | some c => .ok c
    | none => .error (.lockNotFoundIeee ieee)
  | none, none =>
    match coordinators with
    | [] => .error .lockNotFound
    | [c] => .ok c
    | _ => .error (.multipleLocks (coordinators.map Target.ieee))

/-! The handlers, up to where they write. -/

def handleSetPin (call : ServiceCall) (slot : Int) (name code : String) :
    Except ServiceError (Target × ServiceWork) := do
  let c ← h.getCoordinator u call
  let first := firstUserSlot c.options
  let maxSlot := maxUserSlot c.capabilities
  if ¬ (first ≤ slot ∧ slot ≤ maxSlot) then .error (.invalidSlot first maxSlot)
  else if isValidPin u.digits (text code) c.capabilities = false then
    .error (.invalidPin (pinLengthRange c.capabilities).1 (pinLengthRange c.capabilities).2)
  else .ok (c, .write "setting PIN" (.setPin slot name code))

def handleClear (call : ServiceCall) (action : String) (op : PinOp) :
    Except ServiceError (Target × ServiceWork) := do
  let c ← h.getCoordinator u call
  let first := firstUserSlot c.options
  if ¬ (first ≤ op.slot ∧ op.slot < maxSlots) then .error (.invalidSlot first (maxSlots - 1))
  else .ok (c, .write action op)

def handleClearPin (call : ServiceCall) (slot : Int) := h.handleClear u call "clearing PIN" (.clearPin slot)

def handleClearSlot (call : ServiceCall) (slot : Int) := h.handleClear u call "clearing slot" (.clearSlot slot)

/-- Every slot can be named, and the slot is checked before the lock is looked up. -/
def handleSetName (call : ServiceCall) (slot : Int) (name : String) :
    Except ServiceError (Target × ServiceWork) :=
  if ¬ (0 ≤ slot ∧ slot < maxSlots) then .error (.invalidSlot 0 (maxSlots - 1))
  else do
    let c ← h.getCoordinator u call
    .ok (c, .name slot name)

def handle (call : ServiceCall) : Except ServiceError (Target × ServiceWork) :=
  match call.request with
  | .setPin slot name code => h.handleSetPin u call slot name code
  | .clearPin slot => h.handleClearPin u call slot
  | .setName slot name => h.handleSetName u call slot name
  | .clearSlot slot => h.handleClearSlot u call slot

def setCall (tid : JobId) (state : CallState) : House :=
  { h with calls := Function.update h.calls tid (some state) }

/-- The calls once a turn has left an entry so: those whose write is over have ended. -/
def settle (id : String) (w : EntryState) (tid : JobId) : Option CallState :=
  match h.calls tid with
  | some (.writing entryId action op) =>
    if entryId = id then some ((callEnd (w.jobs tid)).elim (.writing entryId action op) .ended)
    else some (.writing entryId action op)
  | other => other

/-- A turn of one entry. -/
def turn (id : String) (turn : Turn) : Option House := do
  let e ← h.entries id
  let e' ← e.turn turn
  some { h with entries := Function.update h.entries id (some e'), calls := h.settle id e'.state }

/-- `_write`, of a write that raised: the text goes to the log, redacted. -/
def failed (tid : JobId) (action : String) (slot : Int) (typeName : String) (message : Text) : House :=
  { h.setCall tid (.ended (.raised (.writeFailed action slot))) with
    log := h.log ++ [text s!"Unexpected error {action} on slot {slot}: {typeName}: " ++
      redactDigits u.digits message] }

/-- A service call, up to where it first suspends. -/
def service (tid : JobId) (call : ServiceCall) : Option House :=
  match h.handle u call with
  | .error error => some (h.setCall tid (.ended (.raised error)))
  | .ok (c, .name slot name) => do
    let t ← h.turn c.entryId (.setSlotName c.cid slot name)
    some (t.setCall tid (.ended .returned))
  | .ok (c, .write action op) => do
    let t ← h.turn c.entryId (.call tid c.cid op)
    let e ← t.entries c.entryId
    match e.state.jobs tid with
    | .finished (.refused message) =>
      some (t.failed u tid action op.slot "ValueError" (text message))
    | _ => some (t.setCall tid (.writing c.entryId action op))

end House

/-- What happens next. A turn of an entry is none of its own calls: those come
from a service or from a dialog. -/
inductive HouseTurn
  | added (id ieee : String) (options : Options)
  | readdressed (id ieee : String)
  | loaded (id : String)
  | unloading (id : String)
  | device (deviceId : String) (identifiers : Option (List (String × String)))
  | entry (id : String) (turn : Turn)
  | dialog (tid : JobId) (id : String) (cid : CoordinatorId) (op : PinOp)
  | service (tid : JobId) (call : ServiceCall)
  | raises (tid : JobId) (typeName : String) (pieces : List Quote)

def Turn.isCall : Turn → Bool
  | .call .. => true
  | _ => false

namespace House

def setEntry (h : House) (id : String) (e : HouseEntry) : House :=
  { h with entries := Function.update h.entries id (some e) }

/-- The transport raises under a service call. The exception leaves the
coordinator as a cancellation would, and `_write` takes it. -/
def raises (u : Unicode) (h : House) (tid : JobId) (typeName : String) (pieces : List Quote) :
    Option House :=
  match h.calls tid with
  | some (.writing id action op) => do
    let e ← h.entries id
    match e.state.jobs tid with
    | .pin _ _ (.sending ..) =>
      let t ← h.turn id (.unwind tid)
      some (t.failed u tid action op.slot typeName (op.quoted pieces))
    | _ => none
  | _ => none

def step (u : Unicode) (h : House) : HouseTurn → Option House
  | .added id ieee options =>
    if (h.entries id).isNone then
      some { h.setEntry id (.new ieee options) with order := h.order ++ [id] }
    else none
  | .readdressed id ieee => do
    let e ← h.entries id
    some (h.setEntry id { e with ieee := ieee })
  | .loaded id => do
    let e ← h.entries id
    if e.state.entry.runtimeData.isSome then some (h.setEntry id { e with loaded := true }) else none
  | .unloading id => do
    let e ← h.entries id
    some (h.setEntry id { e with loaded := false })
  | .device deviceId identifiers =>
    some { h with devices := Function.update h.devices deviceId identifiers }
  | .entry id turn => if turn.isCall then none else h.turn id turn
  | .dialog tid id cid op =>
    if (h.calls tid).isNone then do
      let t ← h.turn id (.call tid cid op)
      some (t.setCall tid (.dialog id op))
    else none
  | .service tid call => if (h.calls tid).isNone then h.service u tid call else none
  | .raises tid typeName pieces => h.raises u tid typeName pieces

/-- Before any lock is added. -/
def start : House := ⟨[], fun _ => none, fun _ => none, fun _ => none, []⟩

end House

end OnestiLock
