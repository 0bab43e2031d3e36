import OnestiLock.Coordinator
import OnestiLock.PinRules

/-! The set_pin and clear_pin steps of the options flow (`config_flow.py`), and
Home Assistant's part in one open dialog: it calls the step it was told to call
next, whenever it likes. A step runs without a break, since the texts it waits
for are cached. -/

namespace OnestiLock

open Python

inductive PinPath
  | setPin | clearPin
  deriving DecidableEq, Repr

/-- What a form submits. -/
inductive PinInput
  | setPin (slot name code : String)
  | clearPin (slot : String)
  deriving DecidableEq, Repr

namespace PinInput

def path : PinInput → PinPath
  | setPin .. => .setPin
  | clearPin _ => .clearPin

def slot : PinInput → String
  | setPin slot _ _ | clearPin slot => slot

/-- The coordinator's coroutine for it. -/
def op (input : PinInput) (slot : Int) : PinOp :=
  match input with
  | setPin _ name code => .setPin slot name code
  | clearPin _ => .clearPin slot

end PinInput

structure FormError where
  key : String
  placeholders : List (String × String)
  deriving DecidableEq, Repr

namespace SendOutcome

def errorKey (o : SendOutcome) : Option String :=
  match o.delivery, o.rejection with
  | .delivered, _ => none
  | .unreached, _ => some "lock_unreachable"
  | .rejected, some .duplicateCode => some "lock_rejected_duplicate"
  | .rejected, some .memoryFull => some "lock_rejected_memory_full"
  | .rejected, _ => some "lock_rejected"

def statusText (o : SendOutcome) : String := (o.status.map toString).getD "?"

end SendOutcome

/-- How a coordinator write ends, short of being cancelled. -/
inductive WriteEnd
  | returned (outcome : SendOutcome)
  | timedOut
  | raised (name : String)
  deriving DecidableEq, Repr

namespace WriteEnd

/-- `_write`. -/
def formError : WriteEnd → Option FormError
  | timedOut => some ⟨"lock_unreachable", []⟩
  | raised _ => some ⟨"unknown", []⟩
  | returned outcome =>
    outcome.errorKey.map (fun key =>
      ⟨key, if outcome.delivery = .unreached then [] else [("status", outcome.statusText)]⟩)

/-- The coordinator has saved before it returns. -/
def saves : WriteEnd → Bool
  | returned outcome => outcome.delivered
  | timedOut | raised _ => false

end WriteEnd

inductive WriteState
  | running
  | ended (how : WriteEnd)
  | cancelled
  deriving DecidableEq, Repr

/-- The task of a coordinator write, which nothing but its own end or the
shutdown of Home Assistant stops. -/
structure WriteTask where
  input : PinInput
  op : PinOp
  state : WriteState

def unknownError : FormError := ⟨"unknown", []⟩

/-- What the form is to say about a write that is over. -/
def WriteTask.error (w : WriteTask) : Option FormError :=
  match w.state with
  | .running => none
  | .ended how => how.formError
  | .cancelled => some unknownError

inductive WaitState
  | waiting
  | finished (error : Option FormError)
  | cancelled
  deriving DecidableEq, Repr

/-- The progress task: it waits for a write, through `asyncio.shield` or directly. -/
structure ProgressTask where
  write : Nat
  shielded : Bool
  state : WaitState

/-- `_task_error`, of a task that is done. -/
def taskError (task : ProgressTask) : Option FormError :=
  match task.state with
  | .cancelled => some unknownError
  | .finished error => error
  | .waiting => none

/-- The three fields the flow keeps for a path. -/
structure PathState where
  input : Option PinInput
  task : Option ProgressTask
  error : Option FormError

structure PinForm where
  path : PinPath
  slots : List (String × String)
  errors : List (String × String)
  placeholders : List (String × String)
  suggested : Option PinInput

/-- The step a finished progress leads to: the form, or the end of the flow. -/
inductive NextStep
  | form (path : PinPath)
  | done (path : PinPath)
  deriving DecidableEq, Repr

inductive FlowResult
  | form (f : PinForm)
  | progress (path : PinPath)
  | progressDone (next : NextStep)
  | createEntry
  | abort (reason : String)

/-- What Home Assistant has on the screen, and so which step it calls next. -/
inductive Current
  | menu
  | form (f : PinForm)
  | progress (path : PinPath)
  | progressDone (next : NextStep)
  | closed

/-- The flow and its tasks. `writes` are the coordinator writes started so far,
and `saved` the ones whose save is done. -/
structure OptionsFlow where
  fields : PinPath → PathState
  current : Current
  writes : List WriteTask
  saved : List PinInput

/-- What a step reads while it runs. -/
structure FormContext where
  strings : Strings
  options : Options
  digits : DigitTable
  capabilities : Option ReportedCapabilities

def pinLengthPlaceholders (c : FormContext) : List (String × String) :=
  [("min", toString (pinLengthRange c.capabilities).1), ("max", toString (pinLengthRange c.capabilities).2)]

/-- `fallback_template.format(slot=i)`. -/
def unnamedSlotLabel (strings : Strings) (slot : Int) : String :=
  ((strings "slot_fallback_name").getD "Slot {slot}").replace "{slot}" (toString slot)

/-- The user slots that hold a PIN, each with its label. -/
def activeSlots (c : FormContext) : List (String × String) :=
  let first := firstUserSlot c.options
  (List.range (maxSlots - first).toNat).filterMap (fun (k : Nat) =>
    let slot := first + (k : Int)
    let stored := (c.options.slots.getD (fun _ => none)) (slotKey slot)
    if (stored.bind StoredSlot.hasPin).getD false then
      let name := storedName c.options slot
      some (slotKey slot, if name = "" then unnamedSlotLabel c.strings slot else formatSlotLabel c.strings slot name)
    else none)

/-- The check a step makes before it takes a submission. -/
def PinInput.passes (c : FormContext) : PinInput → Bool
  | .setPin _ _ code => isValidPin c.digits (text code) c.capabilities
  | .clearPin _ => (activeSlots c).isEmpty == false

namespace OptionsFlow

def opened : OptionsFlow := ⟨fun _ => ⟨none, none, none⟩, .menu, [], []⟩

def setFields (s : OptionsFlow) (path : PinPath) (f : PathState) : OptionsFlow :=
  { s with fields := Function.update s.fields path f }

def setInput (s : OptionsFlow) (path : PinPath) (input : Option PinInput) : OptionsFlow :=
  s.setFields path { s.fields path with input := input }

/-- `_start_write`. A write that never suspends is over before this returns. -/
def startWrite (s : OptionsFlow) (path : PinPath) (input : PinInput) (slot : Int)
    (atOnce : Option WriteEnd) : OptionsFlow :=
  let task : ProgressTask := ⟨s.writes.length, true, atOnce.elim .waiting (fun how => .finished how.formError)⟩
  let started := s.setFields path { s.fields path with task := some task }
  { started with
    writes := s.writes ++ [⟨input, input.op slot, atOnce.elim .running .ended⟩]
    saved := s.saved ++ (if (atOnce.map WriteEnd.saves).getD false then [input] else []) }

/-- The rest of a progress step, once there is a task. -/
def progressOutcome (s : OptionsFlow) (path : PinPath) (task : ProgressTask) : FlowResult × OptionsFlow :=
  if task.state = .waiting then (.progress path, s)
  else
    let error := taskError task
    (.progressDone (if error.isSome then .form path else .done path),
      s.setFields path { s.fields path with task := none, error := error })

/-- A progress step; `none` is an `AssertionError` or a `ValueError`. -/
def progressStep (s : OptionsFlow) (path : PinPath) (atOnce : Option WriteEnd) :
    Option (FlowResult × OptionsFlow) :=
  match (s.fields path).task with
  | some task => some (s.progressOutcome path task)
  | none => do
    let input ← (s.fields path).input
    let slot ← slotOfKey input.slot
    let started := s.startWrite path input slot atOnce
    let task ← (started.fields path).task
    some (started.progressOutcome path task)

def asyncStepSetPinProgress (s : OptionsFlow) (atOnce : Option WriteEnd) := s.progressStep .setPin atOnce

def asyncStepClearPinProgress (s : OptionsFlow) (atOnce : Option WriteEnd) := s.progressStep .clearPin atOnce

def asyncStepProgress (s : OptionsFlow) : PinPath → Option WriteEnd → Option (FlowResult × OptionsFlow)
  | .setPin => s.asyncStepSetPinProgress
  | .clearPin => s.asyncStepClearPinProgress

def doneStep (s : OptionsFlow) (path : PinPath) : FlowResult × OptionsFlow := (.createEntry, s.setInput path none)

def asyncStepSetPinDone (s : OptionsFlow) := s.doneStep .setPin

def asyncStepClearPinDone (s : OptionsFlow) := s.doneStep .clearPin

def asyncStepDone (s : OptionsFlow) : PinPath → FlowResult × OptionsFlow
  | .setPin => s.asyncStepSetPinDone
  | .clearPin => s.asyncStepClearPinDone

/-- `async_step_set_pin`; `none` is a `KeyError` for the code. -/
def asyncStepSetPin (s : OptionsFlow) (c : FormContext) (userInput : Option PinInput)
    (atOnce : Option WriteEnd) : Option (FlowResult × OptionsFlow) :=
  let form (errors placeholders : List (String × String)) (suggested : Option PinInput) : FlowResult :=
    .form ⟨.setPin, slotOptions c.strings c.options, errors, pinLengthPlaceholders c ++ placeholders, suggested⟩
  match (s.fields .setPin).error, userInput with
  | some error, _ =>
    some (form [("base", error.key)] error.placeholders (s.fields .setPin).input,
      s.setFields .setPin { s.fields .setPin with error := none })
  | none, some (.setPin slot name code) =>
    if isValidPin c.digits (text code) c.capabilities then
      (s.setInput .setPin (some (.setPin slot name code))).asyncStepSetPinProgress atOnce
    else some (form [("code", "invalid_pin")] [] (some (.setPin slot name code)), s)
  | none, some (.clearPin _) => none
  | none, none => some (form [] [] none, s)

def asyncStepClearPin (s : OptionsFlow) (c : FormContext) (userInput : Option PinInput)
    (atOnce : Option WriteEnd) : Option (FlowResult × OptionsFlow) :=
  let form (errors placeholders : List (String × String)) (suggested : Option PinInput) : FlowResult :=
    .form ⟨.clearPin, activeSlots c, errors, placeholders, suggested⟩
  if activeSlots c = [] then some (.abort "no_active_slots", s)
  else
    match (s.fields .clearPin).error, userInput with
    | some error, _ =>
      some (form [("base", error.key)] error.placeholders (s.fields .clearPin).input,
        s.setFields .clearPin { s.fields .clearPin with error := none })
    | none, some input => (s.setInput .clearPin (some input)).asyncStepClearPinProgress atOnce
    | none, none => some (form [] [] none, s)

def asyncStepForm (s : OptionsFlow) : PinPath → FormContext → Option PinInput → Option WriteEnd →
    Option (FlowResult × OptionsFlow)
  | .setPin => s.asyncStepSetPin
  | .clearPin => s.asyncStepClearPin

/-! Tasks. -/

def setWrite (s : OptionsFlow) (write : Nat) (state : WriteState) : OptionsFlow :=
  { s with writes := s.writes.modify write (fun w => { w with state := state }) }

/-- Cancelling a task cancels what it waits for, unless that is shielded. -/
def cancelProgress (s : OptionsFlow) (path : PinPath) : OptionsFlow :=
  match (s.fields path).task with
  | some task =>
    if task.state = .waiting then
      let s := s.setFields path { s.fields path with task := some { task with state := .cancelled } }
      if task.shielded then s else s.setWrite task.write .cancelled
    else s
  | none => s

end OptionsFlow

/-- What Home Assistant, the lock or the event loop does next. From a form, either
path may be opened. `atOnce` is the end of a write that never suspends. -/
inductive DialogTurn
  | choose (path : PinPath) (c : FormContext)
  | submit (input : PinInput) (c : FormContext) (atOnce : Option WriteEnd)
  | rerun
  | route (attached : Option PinInput) (c : FormContext) (atOnce : Option WriteEnd)
  | close
  | ends (write : Nat) (how : WriteEnd)
  | shutdown (write : Nat)
  | wake (path : PinPath)

namespace OptionsFlow

/-- The step a turn calls, what it answers and what it leaves. -/
def call (s : OptionsFlow) : DialogTurn → Option (FlowResult × OptionsFlow)
  | .choose path c =>
    match s.current with
    | .menu | .form _ => s.asyncStepForm path c none none
    | .progress _ | .progressDone _ | .closed => none
  | .submit input c atOnce =>
    match s.current with
    | .form f =>
      if f.path = input.path ∧ input.slot ∈ f.slots.map Prod.fst then s.asyncStepForm input.path c (some input) atOnce
      else none
    | .menu | .progress _ | .progressDone _ | .closed => none
  | .rerun =>
    match s.current with
    | .progress path => s.asyncStepProgress path none
    | .menu | .form _ | .progressDone _ | .closed => none
  | .route attached c atOnce =>
    match s.current with
    | .progressDone (.form path) =>
      if ∀ input ∈ attached, input.path = path then s.asyncStepForm path c attached atOnce else none
    | .progressDone (.done path) => some (s.asyncStepDone path)
    | .menu | .form _ | .progress _ | .closed => none
  | .close | .ends .. | .shutdown _ | .wake _ => none

def currentAfter : FlowResult → Current
  | .form f => .form f
  | .progress path => .progress path
  | .progressDone next => .progressDone next
  | .createEntry | .abort _ => .closed

/-- A turn that calls no step. -/
def background (s : OptionsFlow) : DialogTurn → Option OptionsFlow
  | .close => some { (s.cancelProgress .setPin).cancelProgress .clearPin with current := .closed }
  | .ends write how => do
    let w ← s.writes[write]?
    if w.state = .running then
      let ended := s.setWrite write (.ended how)
      some { ended with saved := s.saved ++ (if how.saves then [w.input] else []) }
    else none
  | .shutdown write => do
    let w ← s.writes[write]?
    if w.state = .running then some (s.setWrite write .cancelled) else none
  | .wake path => do
    let task ← (s.fields path).task
    let w ← s.writes[task.write]?
    if task.state = .waiting then
      match w.state with
      | .running => none
      | .ended how =>
        some (s.setFields path { s.fields path with task := some { task with state := .finished how.formError } })
      | .cancelled =>
        some (s.setFields path { s.fields path with task := some { task with state := .cancelled } })
    else none
  | .choose .. | .submit .. | .rerun | .route .. => none

def step (s : OptionsFlow) (turn : DialogTurn) : Option OptionsFlow :=
  match s.call turn with
  | some (result, s') => some { s' with current := currentAfter result }
  | none => s.background turn

/-- The submission a turn makes, if the form and the step let it through. -/
def accepts (s : OptionsFlow) : DialogTurn → Option PinInput
  | .submit input c _ =>
    match s.current with
    | .form f =>
      if (f.path = input.path ∧ input.slot ∈ f.slots.map Prod.fst) ∧ input.passes c then some input else none
    | .menu | .progress _ | .progressDone _ | .closed => none
  | .choose .. | .rerun | .route .. | .close | .ends .. | .shutdown _ | .wake _ => none

end OptionsFlow

end OnestiLock
