import OnestiLock.CommandLine
import OnestiLock.EnrollmentContext

/-! `enroll` and `enroll --resume` of the command line tool. -/

namespace OnestiLock.Cli

open Python Json Program

structure EnrollArgs where
  address : Argument
  name : Option Text
  resume : Bool
  /-- The path of `--state`, with its `~` expanded. -/
  state : Option Text
  seconds : Text
  yes : Bool
  forceLogin : Bool

section

variable {prim : Primitives}

/-- The confirmed steps, in order. -/
def confirmedSteps (e : Enrollment prim) : List String :=
  (EnrollmentStep.all.filter (fun step => decide (step ∈ e.completed))).map EnrollmentStep.value

def remainingSteps (e : Enrollment prim) : List String := e.remaining.map EnrollmentStep.value

def joined (names : List String) : Text := text (", ".intercalate names)

/-- The last part of a path. -/
def pathName (path : Text) : Text := (path.reverse.takeWhile (fun c => c != code '/')).reverse

/-- `StoredLock.label`. -/
def label (stored : StoredLock prim) : Text :=
  text (if stored.enrollment.name = "" then "(no name)" else stored.enrollment.name) ++ text " (" ++
    pathName stored.path ++ text ")"

variable (tool : Tool)

/-- `EnrollmentSaver.__call__`: what it raises, and the enrollment it wrote
last. Only a failure to print is not one to save. -/
def saver (address : Argument) (last : Option (Enrollment prim)) (e : Enrollment prim) :
    ToolProgram prim (Except Exn Unit × Option (Enrollment prim)) :=
  trySave tool e address >>= fun written =>
    match written with
    | .error fault => .done (.error fault.exn, last)
    | .ok path => note (.saved e) >>= fun _ =>
      .call (.say (.stepSaved ((confirmedSteps e).getLast?.getD "") path)) (fun said =>
        match said with
        | .error (.raised x) => .done (.error x, some e)
        | .error (.os _) | .ok () => .done (.ok (), some e))

/-- What the library calls, and the enrollment the saver wrote last. -/
def carry (address : Argument) (last : Option (Enrollment prim)) :
    (op : EnrollmentOp prim) → ToolProgram prim (EnrollmentReply prim op × Option (Enrollment prim))
  | .send command => .call (.send command) (fun r => .done (r, last))
  | .linkKeys => .call .linkKeys (fun r => .done (r, last))
  | .newDeviceId => .call .newDeviceId (fun r => .done (r, last))
  | .keyPairFactory => .call .generateKeyPair (fun pair => .done (.ok pair, last))
  | .now => .call .now (fun r => .done (r, last))
  | .save e => saver tool address last e

/-! The ends of an enrollment. -/

def sayStopped (e : EnrollmentExn prim) : ToolProgram prim Unit :=
  say (.plain (text ("Enrollment stopped: " ++ e.message.getD "")))

/-- `_enrollment_not_saved`. -/
def enrollmentNotSaved (address : Argument) (step : EnrollmentStep) (e : Enrollment prim) (reason : Exn) :
    ToolProgram prim Nat := do
  sayStopped (.notSaved step e reason)
  say (.cause reason)
  match ← trySave tool e address with
  | .error (.raised x) => .fail (.exn x)
  | .error (.os strerror) => do
    note (.stopped step false)
    say (.failedAgain (pathFor tool e) strerror)
    pure exitFailed
  | .ok path => do
    note (.stopped step true)
    say (.savedOnSecondTry path)
    say (.finishWith address)
    pure exitFailed

/-- `_enrollment_stopped`, with an enrollment. -/
def enrollmentPartial (address : Argument) (step : EnrollmentStep) (e : Enrollment prim) (reason : BleError) :
    ToolProgram prim Nat := do
  let path ← saveState tool e address
  note (.stopped step true)
  say (.partialSaved path)
  sayStopped (.stopped step (some e) reason)
  say (.cause (.ble reason))
  say (.finishWith address)
  pure exitFailed

/-- `_enrollment_stopped`, without one. -/
def enrollmentKeyless (step : EnrollmentStep) (reason : BleError) : ToolProgram prim Nat := do
  note (.stopped step false)
  sayStopped (.stopped step none reason)
  say (.cause (.ble reason))
  sayPlain "UserAuthUpdate did not complete, so there was no owner key to save. The lock most likely still takes the factory credential (login --factory tells). If it took the new key and only its answer was lost, only a module reset gets it back."
  pure exitFailed

/-- `_enrollment_interrupted`. -/
def enrollmentInterrupted (address : Argument) (last : Option (Enrollment prim)) : ToolProgram prim Unit := do
  note (.interrupted last)
  match last with
  | none =>
    say (.plain (text "Interrupted before the owner key existed, so nothing was saved. If UserAuthUpdate had gone out, the lock may hold a key nobody has: login " ++
      address ++ text " --factory tells whether it still takes the factory key."))
  | some e => do
    say (.interrupted (pathFor tool e) (confirmedSteps e))
    say (.finishWith address)

/-- The handlers around the library's call, which differ in the credential and
in the text of a refusal. -/
def handle (address : Argument) (kind : LoginKind) (refusal : String → String) (last : Option (Enrollment prim)) :
    Except (Raised prim) (Enrollment prim) → ToolProgram prim (Nat ⊕ Enrollment prim)
  | .ok e => .done (.inr e)
  | .error raised =>
    match raised.exn with
    | .notSaved step e reason => Sum.inl <$> enrollmentNotSaved tool address step e reason
    | .stopped step (some e) reason => Sum.inl <$> enrollmentPartial tool address step e reason
    | .stopped step none reason => Sum.inl <$> enrollmentKeyless step reason
    | .plain (.ble (.operation status command)) => do
      recordLoginFailures address kind (.operation status command) raised.context
      .fail (.cli (text (refusal (operationMessage status command))) exitFailed)
    | .plain .cancelled => do
      enrollmentInterrupted tool address last
      .fail (.exn .cancelled)
    | .plain x => .fail (.exn x)

/-- `_enrolled`, and the exit code. -/
def finished (address : Argument) : Nat ⊕ Enrollment prim → ToolProgram prim Nat
  | .inl exitCode => pure exitCode
  | .inr e => do
    note .done
    say (.enrolled (pathFor tool e))
    sayPlain "Check it:"
    say (.plain (text "  login " ++ address ++ text ": must work with the stored key"))
    say (.plain (text "  login " ++ address ++ text " --factory: must be refused"))
    sayPlain "  scan: must show a seed other than 0000, and this lock as stored"
    pure exitOk

/-! The commands. -/

def enrollRefusal (message : String) : String :=
  s!"The lock refused the factory credential ({message}). Nothing changed on it."

/-- The library's call inside the session. -/
def enrollInSession (args : EnrollArgs) (name : String) (description : List Text) :
    ToolProgram prim (Nat ⊕ Enrollment prim) := do
  sayAll description
  note .start
  host (carry tool args.address) (enroll ⟨name, none, none, none⟩) none
    (fun last out => handle tool args.address .factory enrollRefusal last (out.mapError (fun x => ⟨x, none⟩)))

/-- `cmd_enroll`, once it is confirmed. -/
def enrollConfirmed (args : EnrollArgs) (name : String) : ToolProgram prim Nat := do
  say (.plain (text "That file is the only copy of the owner key. Have somewhere to copy it to (" ++
    tool.directory ++ text " is one disk), and copy it there as soon as this finishes: a lock whose key is gone needs a module reset."))
  checkWritable tool
  say (.plain (text "Listening up to " ++ args.seconds ++ text " s for " ++ args.address ++
    text "'s advertisement, to check the seed ..."))
  match ← .call .findAdvertisement exnRaising with
  | none =>
    refuse (text "No 0xFD00 advertisement from " ++ args.address ++ text " in " ++ args.seconds ++
      text " s, so its factory state cannot be confirmed. Wake the lock and try again.")
  | some seed =>
    if seed.enrolled then
      refuse (args.address ++ text " advertises seed " ++ hexText seed.bytes ++
        text ": someone owns it over BLE already. This tool enrolls only a lock whose seed is 0000.")
    else do
      sayPlain "  seed 0000: factory state"
      checkLoginBudget tool args.address args.forceLogin
      let out ← openSession args.address (enrollInSession tool args name)
      finished tool args.address out

def enrollSteps (name : Text) : List Text :=
  [text "log in with the factory credential (user 0, device id 00 x 6, key 11 x 16)",
    text "send UserAuthUpdate: the lock gets a new owner key and the factory key stops working",
    text "send DeviceIdSet with a random device id",
    text "send CurrentTimeSet with the current time",
    text "send ServerKeyUpdate with a server key generated here",
    text "send DeviceNameSet '" ++ name ++ text "'",
    text "save the enrollment in " ++ tool.directory ++ text " as each step lands"]

/-- `cmd_enroll` without `--resume`. -/
def enrollAnew (args : EnrollArgs) : ToolProgram prim Nat :=
  match args.name with
  | none => refuse (text "enroll needs --name (at most 8 ASCII characters), or --resume")
  | some name => do
    let _ ← validatedCli (deviceNameSet (nameOf name))
    match ← findByAddress tool args.address with
    | existing :: _ =>
      refuse (existing.path ++ text " already holds an enrollment last seen at " ++ args.address ++
        text ". Use enroll --resume to finish it; this tool does not enroll a lock twice.")
    | [] => do
      if ← confirm args.address none (enrollSteps tool name) args.yes then
        enrollConfirmed tool args (nameOf name)
      else pure exitRefused

/-- The enrollment to resume: the one `--state` names, or the only one last
seen at the address. -/
def findStored (args : EnrollArgs) : ToolProgram prim (StoredLock prim) :=
  match args.state with
  | some path => loadState tool path
  | none => do
    match ← findByAddress tool args.address with
    | [stored] => pure stored
    | found =>
      refuse (text (if found.isEmpty then "No" else "More than one") ++
        text " stored enrollment was last seen at " ++ args.address ++ text "; name it with --state FILE")

def resumeRefusal (message : String) : String := s!"The lock refused the stored owner key ({message})."

/-- The library's call inside the session. -/
def resumeInSession (args : EnrollArgs) (e : Enrollment prim) (description : List Text) :
    ToolProgram prim (Nat ⊕ Enrollment prim) := do
  sayAll description
  note (.resume e)
  host (carry tool args.address) (resumeRaising e none) (some e)
    (fun last out => handle tool args.address .stored resumeRefusal last out)

def resumeSteps (stored : StoredLock prim) : List Text :=
  [text "log in with the stored owner key (" ++ label stored ++
      text "); if the lock refuses the factory device id, once more with the enrolled one",
    text "run the remaining steps: " ++ joined (remainingSteps stored.enrollment),
    text "save the enrollment in " ++ stored.path ++ text " as each step lands"]

/-- `_resume`, of a stored enrollment. -/
def resumeStored (args : EnrollArgs) (stored : StoredLock prim) : ToolProgram prim Nat :=
  if stored.enrollment.complete then do
    say (.plain (label stored ++ text " is complete already; nothing to resume."))
    pure exitOk
  else do
    if ← confirm args.address none (resumeSteps stored) args.yes then do
      checkWritable tool
      checkLoginBudget tool args.address args.forceLogin
      let out ← openSession args.address (resumeInSession tool args stored.enrollment)
      finished tool args.address out
    else pure exitRefused

/-- `_resume`. -/
def resume (args : EnrollArgs) : ToolProgram prim Nat :=
  findStored tool args >>= resumeStored tool args

/-- `cmd_enroll`. -/
def cmdEnroll (args : EnrollArgs) : ToolProgram prim Nat :=
  if args.resume then resume tool args else enrollAnew tool args

end

end OnestiLock.Cli
