import Mathlib.Logic.Function.Basic
import OnestiLock.Scope
import OnestiLock.SlotStore
import OnestiLock.Transition
import OnestiLock.ZhaObjects

/-! A loaded entry follows ZHA (`__init__.py`, with `set_available` of
`coordinator.py` and `register_event_listener` of `events.py`). ZHA's entries and
objects come and go at any time, between the awaits of a setup too; Home
Assistant sets the entry up, unloads and reloads it. -/

namespace OnestiLock

open Python

namespace Watch

inductive ConfigEntryState
  | loaded | setupError | migrationError | setupRetry | notLoaded | failedUnload | setupInProgress
  | unloadInProgress
  deriving DecidableEq, Repr

/-- Where the entry is, with the coordinator at work from the first await of a
setup on. Home Assistant has shown an entry that unloads as loaded, and shows it
as unloading since. -/
inductive Stage
  | notLoaded | setupRetry | setupError
  | readingStrings (coordinator : Nat)
  | forwardingSetups (coordinator : Nat)
  | loaded (coordinator : Nat)
  | unloading (shown : Bool) (coordinator : Nat)
  | failedUnload (coordinator : Nat)
  deriving DecidableEq, Repr

/-- `entry.state is ConfigEntryState.LOADED`. -/
def Stage.isLoaded : Stage → Bool
  | loaded _ | unloading true _ => true
  | _ => false

/-- The coordinator of an entry that has been set up and not been unloaded. -/
def Stage.holder : Stage → Option Nat
  | loaded c | unloading _ c | failedUnload c => some c
  | _ => none

/-- What an entry has registered, each with the coordinator its callback acts on. -/
inductive Registration
  | stateChange (zhaEntry : Nat) (coordinator : Nat)
  | entryChanged (coordinator : Nat)
  | updateListener
  | report (cluster : ZhaCluster) (coordinator : Nat)
  | issue (detail : Text)
  deriving DecidableEq

/-- The repair issue is taken off by its id, whatever it says. -/
def Registration.key : Registration → Registration
  | issue _ => issue []
  | r => r

/-- The fields of `OnestiCoordinator` that availability is about. -/
structure Monitor where
  ieee : Text
  listenedCluster : Option ZhaCluster
  available : Bool
  setupFirstUserSlot : Int

/-- The lines of the log, and the states written to the entities. -/
inductive LogLine
  | stopped (ieee : Text)
  | arrivingAgain (ieee : Text)
  | noGateway
  | clusterNotFound (ieee : Text)
  | internalsMissing (ieee detail : Text)
  | notified (coordinator : Nat) (available : Bool)
  deriving DecidableEq

structure EntryData where
  ieee : Text
  model : Option Text

/-- Home Assistant as far as one entry and ZHA go. `lossLogged` says whether the
entry is in `_LOSS_LOGGED`; `reloads` are the scheduled ones that have not begun. -/
structure Hass where
  zhaEntries : List (Nat × ConfigEntryState)
  nextZhaEntry : Nat
  gateway : GatewayProxy
  data : EntryData
  options : Options
  stage : Stage
  coordinators : Nat → Monitor
  nextCoordinator : Nat
  scope : Scope Registration Registration
  lossLogged : Bool
  reloads : Nat
  log : List LogLine

namespace Hass

def write (s : Hass) (line : LogLine) : Hass := { s with log := s.log ++ [line] }

def scheduleReload (s : Hass) : Hass := { s with reloads := s.reloads + 1 }

/-- `_zha_entry_loaded`. -/
def zhaEntryLoaded (s : Hass) : Bool := s.zhaEntries.any (fun entry => entry.2 == .loaded)

/-! `coordinator.py` -/

def monitor (s : Hass) (c : Nat) : Monitor := s.coordinators c

def setMonitor (s : Hass) (c : Nat) (m : Monitor) : Hass :=
  { s with coordinators := Function.update s.coordinators c m }

def logAvailability (c : Nat) (available : Bool) (s : Hass) : Hass :=
  if available then
    if s.lossLogged then { s with lossLogged := false }.write (.arrivingAgain (s.monitor c).ieee) else s
  else if s.lossLogged then s
  else { s with lossLogged := true }.write (.stopped (s.monitor c).ieee)

def setAvailable (c : Nat) (available quiet : Bool) (s : Hass) : Hass :=
  let changed := available != (s.monitor c).available
  let s := s.setMonitor c { s.monitor c with available := available }
  let s := if quiet then s else s.logAvailability c available
  if changed then s.write (.notified c available) else s

/-- The setter of `listened_cluster`, for a cluster. -/
def setListenedCluster (c : Nat) (cluster : ZhaCluster) (s : Hass) : Hass :=
  (s.setMonitor c { s.monitor c with listenedCluster := some cluster }).setAvailable c true false

/-! `events.py` -/

/-- `_subscribe`; an error is `ZhaInternalsMissing`. -/
def subscribe (c : Nat) (cluster : ZhaCluster) (s : Hass) : Except Text Hass :=
  if cluster.onEvent || (cluster.addListener && cluster.removeListener) then
    .ok { s with scope := s.scope.register (.report cluster c) }
  else
    .error (cluster.typeName ++ text ".on_event, and no add_listener/remove_listener either")

end Hass

section

variable (lower : Text → Text)

namespace Hass

/-- `transport.cluster()`, of the lock the coordinator was made for. -/
def cluster (c : Nat) (s : Hass) : Option ZhaCluster :=
  findDoorLockCluster lower s.gateway (s.monitor c).ieee

def logMissingCluster (c : Nat) (s : Hass) : Hass :=
  if s.gateway.isSome then s.write (.clusterNotFound (s.monitor c).ieee) else s.write .noGateway

/-- The cluster listened to, or what is missing, with the state each leaves. -/
def registerEventListener (c : Nat) (s : Hass) : Hass × Except Text ZhaCluster :=
  match s.cluster lower c with
  | none => (s.logMissingCluster c, .error (text "Door Lock cluster for " ++ (s.monitor c).ieee))
  | some cluster =>
    match s.subscribe c cluster with
    | .error detail => (s, .error detail)
    | .ok s => (s.setListenedCluster c cluster, .ok cluster)

/-! `__init__.py` -/

/-- The log line and the repair issue for internals that are missing. -/
def reportMissing (c : Nat) (detail : Text) (s : Hass) : Hass :=
  let detail := if s.gateway.isSome then detail else text "ZHA gateway (get_zha_gateway_proxy)"
  let s := s.write (.internalsMissing (s.monitor c).ieee detail)
  let s := { s with scope := (s.scope.release Registration.key (.issue [])).register (.issue detail) }
  s.setAvailable c false true

def startEventListener (c : Nat) (s : Hass) : Hass :=
  let s :=
    match s.registerEventListener lower c with
    | (s, .error detail) => s.reportMissing c detail
    | (s, .ok cluster) =>
      let s := { s with scope := s.scope.onClose (.report cluster c) }
      { s with scope := s.scope.release Registration.key (.issue []) }
  { s with scope := s.scope.onClose (.issue []) }

/-- `_on_zha_state_change` of a watch, for the state the ZHA entry has come to. -/
def onZhaStateChange (c : Nat) (state : ConfigEntryState) (s : Hass) : Hass :=
  if s.stage.isLoaded = false then s
  else if state ≠ .loaded then
    if s.zhaEntryLoaded then s else s.setAvailable c false false
  else
    match (s.monitor c).listenedCluster with
    | none => s.scheduleReload
    | some cluster =>
      if s.cluster lower c = some cluster then s.setAvailable c true false else s.scheduleReload

end Hass

def Hass.enter (s : Hass) (r : Registration) : Hass :=
  { s with scope := s.scope.enter Registration.key r }

/-- `_watch`. -/
def Hass.watch (c : Nat) (s : Hass) (zhaEntry : Nat) : Hass := s.enter (.stateChange zhaEntry c)

def Hass.watchZhaEntries (c : Nat) (s : Hass) : Hass :=
  ((s.zhaEntries.map Prod.fst).foldl (Hass.watch c) s).enter (.entryChanged c)

namespace Hass

/-- The stored model, or what ZHA says of the lock while none is stored. -/
def modelAtSetup (s : Hass) : Option Text :=
  if (s.data.model.getD []).isEmpty then
    let model := modelOfLock lower s.gateway s.data.ieee
    if (model.getD []).isEmpty then s.data.model else model
  else s.data.model

/-- `OnestiCoordinator(hass, entry)`. -/
def newMonitor (s : Hass) : Monitor where
  ieee := s.data.ieee
  listenedCluster := none
  available := s.gateway.isSome
  setupFirstUserSlot := firstUserSlot s.options

/-- A setup up to its first await. -/
def asyncSetupEntry (s : Hass) : Hass :=
  if s.gateway.isSome && !lockInZha lower s.gateway s.data.ieee then { s with stage := .setupRetry }
  else
    { s with
      data := { s.data with model := s.modelAtSetup lower }
      coordinators := Function.update s.coordinators s.nextCoordinator s.newMonitor
      nextCoordinator := s.nextCoordinator + 1
      stage := .readingStrings s.nextCoordinator }

/-- The rest of a setup once the platforms are forwarded. -/
def finishSetup (c : Nat) (s : Hass) : Hass :=
  let s := (s.watchZhaEntries c).enter .updateListener
  let s := if s.gateway.isNone && !s.zhaEntryLoaded then s.setAvailable c false false
    else s.startEventListener lower c
  { s with stage := .loaded c }

def asyncOptionsUpdated (c : Nat) (s : Hass) : Hass :=
  if firstUserSlot s.options ≠ (s.monitor c).setupFirstUserSlot then s.scheduleReload else s

/-- An update of the stored entry calls the update listener, if there is one. -/
def entryUpdated (s : Hass) : Hass :=
  match s.stage.holder with
  | some c => if .updateListener ∈ s.scope.live then s.asyncOptionsUpdated c else s
  | none => s

/-- The watches of one ZHA entry, in the order they were registered. -/
def watchers (s : Hass) (zhaEntry : Nat) : List Nat :=
  s.scope.live.filterMap (fun
    | .stateChange watched c => if watched = zhaEntry then some c else none
    | _ => none)

/-- `_on_config_entry_changed` for an added ZHA entry. -/
def addedWatchers (s : Hass) : List Nat :=
  s.scope.live.filterMap (fun
    | .entryChanged c => some c
    | _ => none)

def setZhaState (s : Hass) (zhaEntry : Nat) (state : ConfigEntryState) : Hass :=
  { s with zhaEntries := s.zhaEntries.map (fun entry =>
      if entry.1 = zhaEntry then (zhaEntry, state) else entry) }

def unload (shown : Bool) (s : Hass) : Option Hass :=
  match s.stage with
  | .loaded c => some { s with stage := .unloading shown c }
  | .setupRetry | .setupError => some { s with stage := .notLoaded }
  | _ => none

def setup (s : Hass) : Option Hass :=
  match s.stage with
  | .notLoaded | .setupRetry | .setupError => some (s.asyncSetupEntry lower)
  | _ => none

/-- Home Assistant runs the undo steps when an entry is unloaded or a setup fails. -/
def processOnUnload (s : Hass) : Hass := { s with scope := s.scope.close Registration.key }

end Hass

inductive Happening
  | zhaState (zhaEntry : Nat) (state : ConfigEntryState)
  | zhaAdded
  | zhaRemoved (zhaEntry : Nat)
  | gateway (gateway : GatewayProxy)
  | setup
  | stringsRead
  | platformsForwarded
  | setupRaised
  | unload (shown : Bool)
  | platformsUnloaded (ok : Bool)
  | reload (shown : Bool)
  | options (options : Options)
  | reconfigured (data : EntryData)

def step (s : Hass) : Happening → Option Hass
  | .zhaState zhaEntry state =>
    if zhaEntry ∈ s.zhaEntries.map Prod.fst then
      let s := s.setZhaState zhaEntry state
      some ((s.watchers zhaEntry).foldl (fun s c => s.onZhaStateChange lower c state) s)
    else none
  | .zhaAdded =>
    let zhaEntry := s.nextZhaEntry
    let s := { s with zhaEntries := s.zhaEntries ++ [(zhaEntry, ConfigEntryState.notLoaded)], nextZhaEntry := zhaEntry + 1 }
    some (s.addedWatchers.foldl (fun s c => s.watch c zhaEntry) s)
  -- Home Assistant unloads an entry before it removes it.
  | .zhaRemoved zhaEntry =>
    if (zhaEntry, .loaded) ∈ s.zhaEntries then none
    else some { s with zhaEntries := s.zhaEntries.filter (fun entry => entry.1 ≠ zhaEntry) }
  | .gateway gateway => some { s with gateway := gateway }
  | .setup => s.setup lower
  | .stringsRead =>
    match s.stage with
    | .readingStrings c => some { s with stage := .forwardingSetups c }
    | _ => none
  | .platformsForwarded =>
    match s.stage with
    | .forwardingSetups c => some (s.finishSetup lower c)
    | _ => none
  | .setupRaised =>
    match s.stage with
    | .readingStrings _ | .forwardingSetups _ => some { s.processOnUnload with stage := .setupError }
    | _ => none
  | .unload shown => s.unload shown
  | .platformsUnloaded ok =>
    match s.stage with
    | .unloading _ c =>
      if ok then some { s.processOnUnload with stage := .notLoaded }
      else some { s with stage := .failedUnload c }
    | _ => none
  | .reload shown =>
    if s.reloads = 0 then none
    else
      let s := { s with reloads := s.reloads - 1 }
      match s.stage with
      | .failedUnload _ => some s
      | .loaded _ => s.unload shown
      | _ => s.setup lower
  | .options options => some ({ s with options := options }).entryUpdated
  | .reconfigured data => some ({ s with data := data }).entryUpdated.scheduleReload

abbrev exec := Transition.exec (step lower)

end

/-- Home Assistant before the entry is set up for the first time. -/
structure Starting (s : Hass) : Prop where
  stage : s.stage = .notLoaded
  scope : s.scope = Scope.empty
  lossLogged : s.lossLogged = false
  log : s.log = []

end Watch

end OnestiLock
