import OnestiLock.FifoLock
import OnestiLock.SlotStore
import OnestiLock.Transition

/-! The coordinators of one config entry and the tasks that run on them
(`coordinator.py`). Only a lock, a transport send and a capability read suspend. -/

namespace OnestiLock

abbrev JobId := Nat

abbrev CoordinatorId := Nat

inductive Delivery
  | delivered | rejected | unreached
  deriving DecidableEq, Repr

inductive Rejection
  | duplicateCode | memoryFull | other
  deriving DecidableEq, Repr

structure SendOutcome where
  delivery : Delivery
  status : Option Int
  rejection : Option Rejection
  deriving DecidableEq, Repr

namespace SendOutcome

def ofDelivered : SendOutcome := ⟨.delivered, none, none⟩

def ofUnreached : SendOutcome := ⟨.unreached, none, none⟩

def delivered (o : SendOutcome) : Bool := o.delivery == .delivered

def lockAnswered (o : SendOutcome) : Bool := o.delivery != .unreached

end SendOutcome

structure Coordinator where
  slots : Slots
  pinLock : FifoLock JobId
  capabilitiesLock : FifoLock JobId
  capabilitiesFinal : Bool
  lockCapabilities : Capabilities

/-- `OnestiCoordinator.__init__`. -/
def Coordinator.new (options : Options) : Coordinator :=
  let stored : Option Capabilities :=
    match options.rest optionCapabilities with
    | some (.mapping reported) => some reported
    | _ => none
  { slots := options.loadSlots
    pinLock := .free
    capabilitiesLock := .free
    capabilitiesFinal := stored.isSome
    lockCapabilities := stored.getD (fun _ => none) }

/-- `runtimeData` names the coordinator that is published on the entry. -/
structure ConfigEntry where
  options : Options
  runtimeData : Option CoordinatorId

inductive PinStage
  | acquiring
  | sending (request : ClusterCommand) (executed : Bool)
  deriving DecidableEq, Repr

inductive RefreshStage
  | acquiring | reading
  deriving DecidableEq, Repr

inductive JobResult
  | returned (outcome : SendOutcome)
  | refused (message : String)
  | refreshed
  | cancelled
  deriving DecidableEq, Repr

/-- `set_pin`, `clear_pin`, `clear_slot` and `async_refresh_capabilities`,
each at the await it is suspended in. -/
inductive Job
  | idle
  | pin (cid : CoordinatorId) (op : PinOp) (stage : PinStage)
  | refresh (cid : CoordinatorId) (stage : RefreshStage)
  | finished (result : JobResult)
  deriving DecidableEq, Repr

/-- `settingUp` are the coordinators `async_setup_entry` has built and not
published yet: it waits for the translation texts in between. -/
structure EntryState where
  entry : ConfigEntry
  settingUp : List CoordinatorId
  coordinators : CoordinatorId → Option Coordinator
  jobs : JobId → Job

namespace EntryState

/-- An entry that no coordinator has been built on yet. -/
def fresh (options : Options) : EntryState := ⟨⟨options, none⟩, [], fun _ => none, fun _ => .idle⟩

def store (w : EntryState) : Store := w.entry.options.store

def setJob (w : EntryState) (tid : JobId) (job : Job) : EntryState :=
  { w with jobs := Function.update w.jobs tid job }

def setOptions (w : EntryState) (options : Options) : EntryState :=
  { w with entry := { w.entry with options := options } }

def modify (w : EntryState) (cid : CoordinatorId) (f : Coordinator → Coordinator) : EntryState :=
  { w with coordinators := Function.update w.coordinators cid ((w.coordinators cid).map f) }

/-- `_load_slots` of one coordinator. -/
def loadSlots (w : EntryState) (cid : CoordinatorId) : EntryState :=
  w.modify cid (fun c => { c with slots := w.entry.options.loadSlots })

/-- `adopt_stored_slots`. -/
def adoptStoredSlots (w : EntryState) (cid : CoordinatorId) : EntryState := w.loadSlots cid

/-- `_save_slots` of one coordinator. -/
def saveSlots (w : EntryState) (cid : CoordinatorId) : EntryState :=
  match w.coordinators cid with
  | none => w
  | some c =>
    let w := w.setOptions (w.entry.options.saveSlots c.slots)
    match w.entry.runtimeData with
    | some current => if current = cid then w else w.adoptStoredSlots current
    | none => w

def setSlots (w : EntryState) (cid : CoordinatorId) (slots : Slots) : EntryState :=
  w.modify cid (fun c => { c with slots := slots })

/-- The slots in the memory of one coordinator. -/
def slotsOf (w : EntryState) (cid : CoordinatorId) : Slots :=
  match w.coordinators cid with
  | some c => c.slots
  | none => fun _ => none

def setSlotName (w : EntryState) (cid : CoordinatorId) (slot : Int) (name : String) : EntryState :=
  let w := w.loadSlots cid
  match renameSlot (w.slotsOf cid) slot name with
  | some slots => (w.setSlots cid slots).saveSlots cid
  | none => w

/-- The body of `async with self._pin_lock`, up to the send. -/
def startSend (w : EntryState) (tid : JobId) (cid : CoordinatorId) (op : PinOp) : EntryState :=
  w.setJob tid (.pin cid op (.sending op.request false))

/-- `set_pin`, `clear_pin` or `clear_slot`, up to where it first suspends. -/
def callPin (w : EntryState) (c : Coordinator) (tid : JobId) (cid : CoordinatorId) (op : PinOp) :
    EntryState :=
  match checkWritable w.entry.options op.slot with
  | .error message => w.setJob tid (.finished (.refused message))
  | .ok () =>
    match c.pinLock.acquire tid with
    | (lock, true) => (w.modify cid (fun c => { c with pinLock := lock })).startSend tid cid op
    | (lock, false) =>
      (w.modify cid (fun c => { c with pinLock := lock })).setJob tid (.pin cid op .acquiring)

/-- `async_refresh_capabilities`, up to where it first suspends. -/
def refreshCapabilities (w : EntryState) (c : Coordinator) (tid : JobId) (cid : CoordinatorId) :
    EntryState :=
  if c.capabilitiesFinal then w.setJob tid (.finished .refreshed)
  else
    match c.capabilitiesLock.acquire tid with
    | (lock, true) =>
      (w.modify cid (fun c => { c with capabilitiesLock := lock })).setJob tid
        (.refresh cid .reading)
    | (lock, false) =>
      (w.modify cid (fun c => { c with capabilitiesLock := lock })).setJob tid
        (.refresh cid .acquiring)

/-- `schedule_capability_refresh`. -/
def scheduleCapabilityRefresh (w : EntryState) (c : Coordinator) (tid : JobId) (cid : CoordinatorId) :
    Option EntryState :=
  if c.capabilitiesFinal then some w
  else if w.jobs tid = .idle then some (w.refreshCapabilities c tid cid)
  else none

/-- The rest of `_send` once the transport has returned. -/
def sent (w : EntryState) (c : Coordinator) (cid : CoordinatorId) (outcome : SendOutcome)
    (background : JobId) : Option EntryState :=
  if outcome.lockAnswered then w.scheduleCapabilityRefresh c background cid else some w

def releasePin (w : EntryState) (cid : CoordinatorId) : EntryState :=
  w.modify cid (fun c => { c with pinLock := c.pinLock.release })

def releaseCapabilities (w : EntryState) (cid : CoordinatorId) : EntryState :=
  w.modify cid (fun c => { c with capabilitiesLock := c.capabilitiesLock.release })

/-- The rest of a PIN operation once the transport has returned. -/
def finishPin (w : EntryState) (tid : JobId) (cid : CoordinatorId) (op : PinOp)
    (outcome : SendOutcome) : EntryState :=
  let saved :=
    if outcome.delivered then
      let w := w.loadSlots cid
      (w.setSlots cid (op.record (w.slotsOf cid))).saveSlots cid
    else w
  (saved.releasePin cid).setJob tid (.finished (.returned outcome))

/-- The rest of a refresh once the read has returned. -/
def finishRefresh (w : EntryState) (tid : JobId) (cid : CoordinatorId)
    (answer : Option Capabilities) : EntryState :=
  let stored :=
    match answer with
    | none => w
    | some reported =>
      (w.modify cid (fun c =>
        { c with lockCapabilities := reported, capabilitiesFinal := true })).setOptions
          (w.entry.options.set optionCapabilities (.mapping reported))
  (stored.releaseCapabilities cid).setJob tid (.finished .refreshed)

end EntryState

/-- A turn of the event loop, or what the lock does meanwhile. A call that is
refused, or a send that returns at once, is the turn followed by its answer.
`background` names the task a scheduled refresh gets. -/
inductive Turn
  | build (cid : CoordinatorId)
  | publish (cid : CoordinatorId)
  | giveUp (cid : CoordinatorId)
  | unload
  | call (tid : JobId) (cid : CoordinatorId) (op : PinOp)
  | refresh (tid : JobId) (cid : CoordinatorId)
  | acquired (tid : JobId)
  | executes (tid : JobId)
  | answered (tid : JobId) (outcome : SendOutcome) (background : JobId)
  | capabilitiesRead (tid : JobId) (answer : Option Capabilities)
  | cancel (tid : JobId)
  | unwind (tid : JobId)
  | setSlotName (cid : CoordinatorId) (slot : Int) (name : String)
  | settings (reservedSlots : Int)

namespace EntryState

/-- A waiter runs with the lock. -/
def acquired (w : EntryState) (tid : JobId) : Option EntryState :=
  match w.jobs tid with
  | .pin cid op .acquiring => do
    let c ← w.coordinators cid
    let lock ← c.pinLock.take tid
    some ((w.modify cid (fun c => { c with pinLock := lock })).startSend tid cid op)
  | .refresh cid .acquiring => do
    let c ← w.coordinators cid
    let lock ← c.capabilitiesLock.take tid
    let w := w.modify cid (fun c => { c with capabilitiesLock := lock })
    if c.capabilitiesFinal then
      some ((w.releaseCapabilities cid).setJob tid (.finished .refreshed))
    else some (w.setJob tid (.refresh cid .reading))
  | _ => none

/-- The transport returns. It says delivered only of a command the lock took. -/
def answered (w : EntryState) (tid : JobId) (outcome : SendOutcome) (background : JobId) :
    Option EntryState :=
  match w.jobs tid with
  | .pin cid op (.sending _ executed) =>
    if outcome.delivered && !executed then none
    else do
      let c ← w.coordinators cid
      let w ← w.sent c cid outcome background
      some (w.finishPin tid cid op outcome)
  | _ => none

/-- A cancellation reaches a task that waits for a lock. -/
def cancel (w : EntryState) (tid : JobId) : Option EntryState :=
  match w.jobs tid with
  | .pin cid _ .acquiring =>
    some (w.modify cid (fun c => { c with pinLock := c.pinLock.cancelWait tid }))
  | .refresh cid .acquiring =>
    some (w.modify cid (fun c => { c with capabilitiesLock := c.capabilitiesLock.cancelWait tid }))
  | _ => none

/-- A cancelled task leaves through its `async with`. -/
def unwind (w : EntryState) (tid : JobId) : Option EntryState :=
  let unwound (w : EntryState) : EntryState := w.setJob tid (.finished .cancelled)
  match w.jobs tid with
  | .pin cid _ .acquiring =>
    some (unwound (w.modify cid (fun c => { c with pinLock := c.pinLock.abandon tid })))
  | .pin cid _ (.sending ..) => some (unwound (w.releasePin cid))
  | .refresh cid .acquiring =>
    some (unwound
      (w.modify cid (fun c => { c with capabilitiesLock := c.capabilitiesLock.abandon tid })))
  | .refresh cid .reading => some (unwound (w.releaseCapabilities cid))
  | _ => none

def step (w : EntryState) : Turn → Option EntryState
  | .build cid =>
    if (w.coordinators cid).isNone then
      some { w with
        settingUp := cid :: w.settingUp
        coordinators := Function.update w.coordinators cid (some (.new w.entry.options)) }
    else none
  | .publish cid =>
    if cid ∈ w.settingUp then
      some { w with
        entry := { w.entry with runtimeData := some cid }
        settingUp := w.settingUp.erase cid }
    else none
  | .giveUp cid => some { w with settingUp := w.settingUp.erase cid }
  | .unload => some { w with entry := { w.entry with runtimeData := none } }
  | .call tid cid op => do
    let c ← w.coordinators cid
    if w.jobs tid = .idle then some (w.callPin c tid cid op) else none
  | .refresh tid cid => do
    let c ← w.coordinators cid
    w.scheduleCapabilityRefresh c tid cid
  | .acquired tid => w.acquired tid
  | .executes tid =>
    match w.jobs tid with
    | .pin cid op (.sending request _) =>
      some (w.setJob tid (.pin cid op (.sending request true)))
    | _ => none
  | .answered tid outcome background => w.answered tid outcome background
  | .capabilitiesRead tid answer =>
    match w.jobs tid with
    | .refresh cid .reading => some (w.finishRefresh tid cid answer)
    | _ => none
  | .cancel tid => w.cancel tid
  | .unwind tid => w.unwind tid
  | .setSlotName cid slot name =>
    if (w.coordinators cid).isSome then some (w.setSlotName cid slot name) else none
  | .settings reservedSlots =>
    if reservedSlotsMin ≤ reservedSlots ∧ reservedSlots ≤ reservedSlotsMax then
      some (w.setOptions (w.entry.options.set confReservedSlots (.integer reservedSlots)))
    else none

end EntryState

/-- What a turn adds to the history of the lock and of the store. -/
inductive Event
  | executed (op : PinOp)
  | completed (effect : Effect)

def EntryState.events (w : EntryState) : Turn → List Event
  | .executes tid =>
    match w.jobs tid with
    | .pin _ op (.sending ..) => [.executed op]
    | _ => []
  | .answered tid outcome _ =>
    match w.jobs tid with
    | .pin _ op (.sending ..) => if outcome.delivered then [.completed (.pin op)] else []
    | _ => []
  | .capabilitiesRead _ (some reported) => [.completed (.capabilities reported)]
  | .setSlotName _ slot name => [.completed (.name slot name)]
  | .settings reservedSlots => [.completed (.settings reservedSlots)]
  | _ => []

/-- The operations the lock executed, in order. -/
def executions (h : List Event) : List PinOp :=
  h.filterMap fun
    | .executed op => some op
    | .completed _ => none

/-- The effects that took place, in the order the operations completed. -/
def completions (h : List Event) : List Effect :=
  h.filterMap fun
    | .executed _ => none
    | .completed e => some e

end OnestiLock
