import OnestiLock.EnrollCommand

/-! The commands of the tool that log in with a credential it has: `login`,
`read` and the writes. -/

namespace OnestiLock.Cli

open Python Json Program

structure LoginArgs where
  address : Argument
  factory : Bool
  /-- The path of `--state`, with its `~` expanded. -/
  state : Option Text
  yes : Bool
  forceLogin : Bool

structure Login (prim : Primitives) where
  credential : OwnerCredential
  description : Text
  kind : LoginKind
  stored : Option (StoredLock prim)

section

variable {prim : Primitives} (tool : Tool)

def findLogin (args : LoginArgs) : ToolProgram prim (StoredLock prim) :=
  match args.state with
  | some path => loadState tool path
  | none => do
    match ← findByAddress tool args.address with
    | [] =>
      refuse (text "No stored enrollment was last seen at " ++ args.address ++
        text ". Pass --factory for a factory-reset lock, --state FILE for a stored one, or run scan to find the stored lock's current address.")
    | [stored] => pure stored
    | found =>
      .fail (.cli (text "More than one stored enrollment was last seen at " ++ args.address ++ text " (" ++
        (text ", ").intercalate (found.map (fun stored => pathName stored.path)) ++
        text "); pick one with --state") exitFailed)

/-- `resolve_login`. -/
def resolveLogin (args : LoginArgs) : ToolProgram prim (Login prim) :=
  if args.factory then
    pure ⟨defaultOwnerCredential, text "the factory credential (user 0, device id 00 x 6, key 11 x 16)", .factory, none⟩
  else do
    let stored ← findLogin tool args
    if stored.enrollment.complete = false then
      warn (text "The enrollment in " ++ pathName stored.path ++ text " is not finished (" ++
        joined (remainingSteps stored.enrollment) ++ text " left); enroll --resume finishes it.")
    pure ⟨stored.enrollment.ownerCredential, text "the stored enrollment " ++ label stored, .stored, some stored⟩

/-- How a login ends: it is recorded if the library gave it up. -/
def endLogin (address : Argument) (login : Login prim) :
    Except (EnrollmentExn prim) Unit → ToolProgram prim Unit
  | .ok () => do
    sayPlain "  logged in"
    match login.stored with
    | some stored => setAddress tool stored address
    | none => pure ()
  | .error (.plain (.ble (.operation status command))) => do
    recordLoginFailures address login.kind (.operation status command) none
    .fail (.cli (text s!"The lock refused the login: {operationMessage status command}") exitFailed)
  | .error (.plain (.ble b)) => do
    recordLoginFailures address login.kind b none
    .fail (.exn (.ble b))
  | .error (.plain x) => .fail (.exn x)
  -- a login saves nothing and has no steps
  | .error (.stopped _ _ _) | .error (.notSaved _ _ _) => .fail (.exn (.other "BleEnrollmentError"))

/-- `log_in`. -/
def logIn (address : Argument) (login : Login prim) : ToolProgram prim Unit := do
  say (.plain (text "Logging in with " ++ login.description ++ text " ..."))
  host (carry tool address) (authenticateOwner login.credential) none (fun _ out => endLogin tool address login out)

/-- `cmd_login`. -/
def cmdLogin (args : LoginArgs) : ToolProgram prim Nat := do
  let login ← resolveLogin tool args
  checkLoginBudget tool args.address args.forceLogin
  openSession args.address (fun description => do
    sayAll description
    logIn tool args.address login)
  pure exitOk

/-! What is sent after the login. -/

def enrollmentOnlyCommands : List CommandId := [.deviceIdSet, .userAuthUpdate, .serverKeyUpdate]

/-- `_send`. -/
def sendOutside (payload : CommandPayload) : ToolProgram prim (Except Exn Response) :=
  if payload.commandId = .factoryResetModule then
    refuse (text s!"{payload.commandId.name} is never sent by this tool")
  else if payload.commandId ∈ enrollmentOnlyCommands then
    refuse (text s!"{payload.commandId.name} is sent only by enroll")
  else .call (.send payload) .done

/-- What `read` asks for, in order. -/
def reads : List (String × CommandPayload) :=
  [("DeviceModelGet", ⟨.deviceModelGet, []⟩), ("BattInfoGet", ⟨.battInfoGet, []⟩),
    ("DeviceLogGet", ⟨.deviceLogGet, []⟩), ("DeviceNameGet", ⟨.deviceNameGet, []⟩),
    ("CurrentTimeGet", ⟨.currentTimeGet, []⟩)]

/-- The loop of `cmd_read`: whether a read failed. Each answer is shown by its
parser. -/
def readAll (shown : CommandId → Response → BleResult Text) (failed : Bool) :
    List (String × CommandPayload) → ToolProgram prim Bool
  | [] => pure failed
  | (name, payload) :: rest => do
    match ← .call (.unavailable payload) exnRaising with
    | some feature => do
      say (.plain (text name ++ text ": not sent, the app does not offer it on this lock (" ++ feature ++ text ")"))
      readAll shown failed rest
    | none =>
      match ← sendOutside payload with
      | .ok response =>
        match shown payload.commandId response with
        | .ok result => do
          say (.plain (text name ++ text ": " ++ result))
          readAll shown failed rest
        | .error b => .fail (.exn (.ble b))
      | .error (.ble (.operation status command)) => do
        sayPlain s!"{name}: refused, {operationMessage status command}"
        readAll shown true rest
      | .error (.ble (.timeout message _)) => do
        sayPlain s!"{name}: {message}; stopping here"
        pure true
      | .error x => .fail (.exn x)

/-- `cmd_read`. -/
def cmdRead (args : LoginArgs) (shown : CommandId → Response → BleResult Text) : ToolProgram prim Nat := do
  let login ← resolveLogin tool args
  checkLoginBudget tool args.address args.forceLogin
  let failed ← openSession args.address (fun description => do
    sayAll description
    logIn tool args.address login
    readAll shown false reads)
  pure (if failed then exitFailed else exitOk)

/-- The commands that the writes of this tool send. -/
def writeCommands : List CommandId :=
  [.ekeyOperate, .pinCodeSet, .pinCodeClear, .rfidCodeClear, .scanRfidCode, .fingerprintScan, .fingerprintClear]

structure Write where
  payload : CommandPayload
  description : Text
  parse : Option (Response → BleResult Text)
  interactive : Option Text
  listed : payload.commandId ∈ writeCommands

/-- `run_write`, inside the session. -/
def writeInSession (args : LoginArgs) (login : Login prim) (write : Write) (description : List Text) :
    ToolProgram prim Nat := do
  sayAll description
  match ← .call (.unavailable write.payload) exnRaising with
  | some feature => refuse feature
  | none => do
    logIn tool args.address login
    sayAll write.interactive.toList
    say (.plain (text "Sending: " ++ write.description))
    match ← sendOutside write.payload with
    | .error (.ble (.operation status command)) => do
      sayPlain s!"  the lock answered with a failure: {operationMessage status command}"
      pure exitFailed
    | .error x => .fail (.exn x)
    | .ok response => do
      sayPlain s!"  status {responseStatusName response.status}"
      match write.parse with
      | none => pure exitOk
      | some parse =>
        match parse response with
        | .ok result => do
          say (.plain (text "  " ++ result))
          pure exitOk
        | .error b => .fail (.exn (.ble b))

/-- `run_write`. -/
def runWrite (args : LoginArgs) (write : Write) : ToolProgram prim Nat := do
  let login ← resolveLogin tool args
  if ← confirm args.address (some login.description) [write.description] args.yes then do
    checkLoginBudget tool args.address args.forceLogin
    openSession args.address (writeInSession tool args login write)
  else pure exitRefused

end

/-! The commands that log in. -/

inductive Command
  | login (args : LoginArgs)
  | read (args : LoginArgs) (shown : CommandId → Response → BleResult Text)
  | write (args : LoginArgs) (write : Write)
  | enroll (args : EnrollArgs)

namespace Command

variable {prim : Primitives}

def run (tool : Tool) : Command → ToolProgram prim Nat
  | login args => cmdLogin tool args
  | read args shown => cmdRead tool args shown
  | write args w => runWrite tool args w
  | enroll args => cmdEnroll tool args

def address : Command → Argument
  | login args | read args _ | write args _ => args.address
  | enroll args => args.address

def forceLogin : Command → Bool
  | login args | read args _ | write args _ => args.forceLogin
  | enroll args => args.forceLogin

end Command

end OnestiLock.Cli
