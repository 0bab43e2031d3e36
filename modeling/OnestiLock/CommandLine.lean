import OnestiLock.StateSave

/-! The command line tool (`ble_cli.py`): what it calls, what its store and its
list of failed logins do, and the frame of a session. -/

namespace OnestiLock.Cli

open Python Json Program

def exitOk : Nat := 0

def exitRefused : Nat := 2

/-- What the tool takes from Python and from its place in the system. -/
structure Tool where
  /-- How deep `json` recurses. -/
  maxDepth : Nat
  sha256 : Bytes → Bytes
  casefold : Text → Text
  directory : Text
  deep : 3 ≤ maxDepth

/-- An argument of the command line. Decoding it leaves no high surrogate. -/
abbrev Argument := { t : Text // Unpaired t }

/-- A call of the operating system fails, or something else is raised in it. -/
inductive IoFault
  | os (strerror : Text)
  | raised (e : Exn)

def IoFault.exn : IoFault → Exn
  | os _ => .other "OSError"
  | raised e => e

/-! What is printed. -/

inductive Line
  /-- Any line that names no state file and does not say how to go on. -/
  | plain (line : Text)
  | stepSaved (step : String) (path : Text)
  /-- `The partial enrollment is saved in {path}.` -/
  | partialSaved (path : Text)
  /-- `Saved it on the second try, to {path}.` -/
  | savedOnSecondTry (path : Text)
  /-- `Saving to {target} failed again ...` -/
  | failedAgain (target strerror : Text)
  /-- `Interrupted. {path} holds every step the lock confirmed ({done}).` -/
  | interrupted (path : Text) (confirmed : List String)
  /-- `Finish it with: enroll {address} --resume --yes` -/
  | finishWith (address : Text)
  /-- `  cause: {type}: {message}` -/
  | cause (e : Exn)
  /-- `Enrolled. Saved to {path}; ...` -/
  | enrolled (path : Text)
  deriving DecidableEq

/-- The state file a line says holds the enrollment. -/
def Line.holds : Line → Option Text
  | partialSaved path | savedOnSecondTry path | interrupted path _ => some path
  | _ => none

/-- The trace lines of an enrollment, with what they show of it. -/
inductive EnrollNote (prim : Primitives)
  | start
  | resume (stored : Enrollment prim)
  | saved (enrollment : Enrollment prim)
  | stopped (step : EnrollmentStep) (saved : Bool)
  | interrupted (last : Option (Enrollment prim))
  | done

/-! Failed logins. -/

inductive LoginKind
  | factory | stored
  deriving DecidableEq, Repr

/-- A line of the file, its moment in microseconds. -/
structure FailedLogin where
  t : Nat
  address : Text
  credential : LoginKind
  status : String
  deriving DecidableEq, Repr

/-- The lines of the file. One that does not read as an entry is skipped. -/
abbrev FailedLogins := List (Option FailedLogin)

def failedLoginLimit : Nat := 2

/-- A day. -/
def failedLoginWindow : Nat := 86400000000

/-- `_same_address`. -/
def sameAddress (casefold : Text → Text) (a b : Text) : Bool := casefold a == casefold b

/-- `FailedLogins.recent`. -/
def FailedLogins.recent (casefold : Text → Text) (log : FailedLogins) (address : Text) (now : Nat) : Nat :=
  log.countP (fun line => line.any (fun entry =>
    sameAddress casefold entry.address address && decide (now < entry.t + failedLoginWindow)))

/-! What the tool calls. -/

inductive ToolOp (prim : Primitives)
  | say (line : Line)
  | warn (message : Text)
  | note (note : EnrollNote prim)
  | listState
  | readFile (path : Text)
  | checkWritable
  | writeState (name : Text) (data : StateData prim)
  | nowIso
  | now
  | readFailedLogins
  | recordFailedLogin (entry : FailedLogin)
  | findAdvertisement
  | openTransport
  | connectSession
  | closeSession
  | unavailable (command : CommandPayload)
  | send (command : CommandPayload)
  | linkKeys
  | newDeviceId
  | generateKeyPair

/-- What an advertisement shows of a lock's owner. -/
structure Seed where
  bytes : Bytes

def Seed.enrolled (seed : Seed) : Bool := seed.bytes != [0, 0]

def ToolReply (prim : Primitives) : ToolOp prim → Type
  | .say _ | .warn _ => Except IoFault Unit
  | .note _ => Unit
  | .listState => Except Exn (Option Directory)
  | .readFile _ => File
  | .checkWritable | .writeState _ _ | .recordFailedLogin _ => Except IoFault Unit
  | .nowIso => { t : Text // t.isAscii = true }
  | .now => UtcNow
  | .readFailedLogins => Except Exn FailedLogins
  | .findAdvertisement => Except Exn (Option Seed)
  | .openTransport => Except CliExn Text
  | .connectSession => Except Exn (List Text)
  | .closeSession => Except Exn Unit
  | .unavailable _ => Except Exn (Option Text)
  | .send _ => Except Exn Response
  | .linkKeys => Except Exn LinkKeys
  | .newDeviceId => NewDeviceId
  | .generateKeyPair => KeyPair

abbrev ToolProgram (prim : Primitives) (α : Type) := Program (ToolOp prim) (ToolReply prim) CliExn α

section

variable {prim : Primitives} {α : Type}

def ioRaising : Except IoFault α → ToolProgram prim α
  | .ok a => .done a
  | .error fault => .fail (.exn fault.exn)

def exnRaising : Except Exn α → ToolProgram prim α
  | .ok a => .done a
  | .error e => .fail (.exn e)

def cliRaising : Except CliExn α → ToolProgram prim α
  | .ok a => .done a
  | .error e => .fail e

def refuse (message : Text) : ToolProgram prim α := .fail (.cli message exitRefused)

/-- `ctx.say`. -/
def say (line : Line) : ToolProgram prim Unit := .call (.say line) ioRaising

def sayPlain (line : String) : ToolProgram prim Unit := say (.plain (text line))

/-- `ctx.warn`. -/
def warn (message : Text) : ToolProgram prim Unit := .call (.warn message) ioRaising

def note (n : EnrollNote prim) : ToolProgram prim Unit := .call (.note n) .done

def utcNow : ToolProgram prim DateTime := .call .now (fun moment => .done moment.val)

/-- `_validated`. -/
def validatedCli (x : Except BleValidationError α) : ToolProgram prim α :=
  match x with
  | .ok a => .done a
  | .error e => refuse (text e.message)

/-- `try ... finally`. -/
def andFinally (p : ToolProgram prim α) (cleanup : ToolProgram prim Unit) : ToolProgram prim α :=
  p.both (fun out => cleanup >>= fun _ => ended out)

/-! The state store. -/

variable (tool : Tool)

/-- `StateStore.path_for`. -/
def pathFor (e : Enrollment prim) : Text :=
  tool.directory ++ text "/" ++ stateName tool.sha256 e.deviceId

/-- `StateStore.by_address`, of a directory. -/
def byAddress (prim : Primitives) (directory : Option Directory) (address : Text) :
    Except CliExn (List (StoredLock prim)) :=
  (storedLocks prim tool.maxDepth tool.directory directory).map (fun all =>
    all.filter (fun stored => stored.address.any (fun a => sameAddress tool.casefold a address)))

def findByAddress (address : Text) : ToolProgram prim (List (StoredLock prim)) :=
  .call .listState (fun listed =>
    match listed with
    | .ok directory => cliRaising (byAddress tool prim directory address)
    | .error e => .fail (.exn e))

def loadState (path : Text) : ToolProgram prim (StoredLock prim) :=
  .call (.readFile path) (fun file => cliRaising (load prim tool.maxDepth path file))

/-- `StateStore.save`, with what it raises. -/
def trySave (e : Enrollment prim) (address : Argument) : ToolProgram prim (Except IoFault Text) :=
  .call .nowIso (fun saved =>
    .call (.writeState (stateName tool.sha256 e.deviceId) ⟨some address.val, saved.val, e⟩) (fun written =>
      .done (written.map (fun _ => pathFor tool e))))

def saveState (e : Enrollment prim) (address : Argument) : ToolProgram prim Text :=
  trySave tool e address >>= ioRaising

/-- `StateStore.set_address`. -/
def setAddress (stored : StoredLock prim) (address : Argument) : ToolProgram prim Unit :=
  if stored.address = some address.val then pure ()
  else do
    let _ ← saveState tool stored.enrollment address
    pure ()

def checkWritable : ToolProgram prim Unit :=
  .call .checkWritable (fun written =>
    match written with
    | .ok () => .done ()
    | .error (.os strerror) => .fail (.cli (text "Cannot write to the state directory " ++ tool.directory ++
        text ": " ++ strerror) exitFailed)
    | .error (.raised e) => .fail (.exn e))

/-! The budget of failed logins. -/

def checkLoginBudget (address : Text) (forceLogin : Bool) : ToolProgram prim Unit := do
  let now ← utcNow
  let log ← .call .readFailedLogins exnRaising
  let failures := FailedLogins.recent tool.casefold log address now.micros
  let message := text s!"{failures} failed login(s) against " ++ address ++
    text " in the last 1 day(s) are recorded in " ++ tool.directory ++
    text "/failed-logins.jsonl. Whether the lock locks out after failed logins is unknown."
  if failures = 0 then pure ()
  else if failedLoginLimit ≤ failures ∧ forceLogin = false then
    refuse (message ++ text " Not trying again without --force-login.")
  else warn message

/-- The status of a refusal, or the class of another error. -/
def failureStatus : BleError → String
  | .operation status _ => responseStatusName status
  | .validation _ => "BleValidationError"
  | .sessionState _ => "BleSessionStateError"
  | .protocol _ => "BleProtocolError"
  | .timeout _ _ => "BleTimeoutError"
  | .disconnected _ => "BleDisconnectedError"
  | .firmwareTooOld _ _ => "BleFirmwareTooOldError"
  | .featureUnavailable _ _ _ _ => "BleFeatureUnavailableError"

/-- `FailedLogins.record`, of a moment in whole milliseconds. -/
def recordFailedLogin (address : Text) (credential : LoginKind) (status : String) : ToolProgram prim Unit := do
  let now ← utcNow
  .call (.recordFailedLogin ⟨now.micros / 1000 * 1000, address, credential, status⟩) ioRaising

/-- `record_login_failures`, of an error and of the one it was raised under. -/
def recordLoginFailures (address : Text) (kind : LoginKind) (e : BleError) (context : Option Exn) :
    ToolProgram prim Unit := do
  match context with
  | some (.ble (.operation status _)) => recordFailedLogin address kind (responseStatusName status)
  | _ => pure ()
  recordFailedLogin address kind (failureStatus e)

/-! Sessions. -/

def sayAll : List Text → ToolProgram prim Unit
  | [] => pure ()
  | line :: rest => do
    say (.plain line)
    sayAll rest

/-- `open_session`. What it says of the session comes from the connection. -/
def openSession (address : Text) (body : List Text → ToolProgram prim α) : ToolProgram prim α := do
  say (.plain (text "Connecting to " ++ address ++ text " ..."))
  let mtu ← .call .openTransport cliRaising
  say (.plain (text "  connected, MTU " ++ mtu ++ text " (the session frames for 23 regardless)"))
  andFinally (.call .connectSession exnRaising >>= body) (.call .closeSession exnRaising)

/-- `confirm`. -/
def confirm (address : Text) (login : Option Text) (steps : List Text) (yes : Bool) : ToolProgram prim Bool := do
  say (.plain (text "On " ++ address ++ text " this will:"))
  sayPlain "  1. connect and run the key exchange"
  let first : List Text := login.toList.map (fun description => text "log in with " ++ description)
  sayAll ((first ++ steps).mapIdx (fun i step => text s!"  {i + 2}. " ++ step))
  if yes then pure true
  else do
    sayPlain "Nothing was sent. Run it again with --yes to send it."
    pure false

/-- The message of a `BleOperationError`. -/
def operationMessage (status command : Nat) : String :=
  let name := (responseName? command).elim s!"Command 0x{hexByte command}" (fun name => s!"{name} (0x{hexByte command})")
  let known := responseStatusNames[status]?.elim s!"status 0x{hexByte status}" (fun name => s!"{name} (0x{hexByte status})")
  s!"{name} failed with status {known}"

end

end OnestiLock.Cli
