import OnestiLock.CommandLine
import OnestiLock.EnrollmentSaves
import OnestiLock.StateFiles

/-! The surroundings of a command: the state directory, the list of failed
logins, what was printed, and what the lock confirmed. -/

namespace OnestiLock.Cli

open Python Json Program

variable {prim : Primitives}

/-- A login: whether its UserAuthBegin was handed to the transport, and how it
ended, if it did. -/
structure Attempt where
  handed : Bool
  outcome : Option (Except Exn Unit)
  deriving DecidableEq

def settleLast (outcome : Except Exn Unit) : List Attempt → List Attempt
  | [] => []
  | [a] => [{ a with outcome := a.outcome.getD outcome }]
  | a :: b :: rest => a :: settleLast outcome (b :: rest)

/-- What an answer to UserAuthBegin makes of the login it opens. -/
def opened (reply : Except Exn Response) : Option (Except Exn Unit) :=
  match reply with
  | .error x => some (.error x)
  | .ok response =>
    match parseUserAuthBegin response with
    | .ok _ => none
    | .error b => some (.error (.ble b))

/-- The logins after a command was answered. -/
def attemptsAfter (attempts : List Attempt) (handed : Bool) (command : CommandPayload)
    (reply : Except Exn Response) : List Attempt :=
  match command.commandId with
  | .userAuthBegin => attempts ++ [⟨handed, opened reply⟩]
  | .userAuthFinalize => settleLast (reply.map (fun _ => ())) attempts
  | _ => attempts

structure World (prim : Primitives) where
  directory : Option Directory
  /-- The names of the state files the run put into place. -/
  wrote : List Text
  said : List Line
  seen : Seen prim
  attempts : List Attempt
  failedLogins : FailedLogins
  /-- A failed login could not be written down. -/
  unrecorded : Bool
  /-- The moment the command first asked for. -/
  asked : Option DateTime

namespace World

/-- Before a command. -/
def start (directory : Option Directory) (failedLogins : FailedLogins) : World prim :=
  ⟨directory, [], [], .fresh, [], failedLogins, false, none⟩

def files (w : World prim) : Directory := w.directory.getD []

def saying (w : World prim) (line : Line) : World prim := { w with said := w.said ++ [line] }

/-- What is noted of an enrollment says where its steps begin. -/
def noted (w : World prim) : EnrollNote prim → World prim
  | .start => { w with seen := .fresh }
  | .resume stored => { w with seen := .resuming stored }
  | _ => w

/-- The directory exists from here on. -/
def made (w : World prim) : World prim := { w with directory := some w.files }

/-- The old file or the new one, never half of it. -/
def put (w : World prim) (name : Text) (data : StateData prim) : World prim :=
  { w with
    directory := some ((name, .ok data.file) :: w.files.filter (fun f => f.1 != name))
    wrote := name :: w.wrote
    seen := w.seen.next (.save data.enrollment) (.ok ()) }

def answered (w : World prim) (handed : Bool) (command : CommandPayload) (reply : Except Exn Response) :
    World prim :=
  { w with
    seen := w.seen.next (.send command) reply
    attempts := attemptsAfter w.attempts handed command reply }

def settled (w : World prim) (reply : Except Exn LinkKeys) : World prim :=
  match reply with
  | .ok _ => w
  | .error x => { w with attempts := settleLast (.error x) w.attempts }

def keyed (w : World prim) (pair : KeyPair) : World prim :=
  { w with seen := w.seen.next .keyPairFactory (.ok pair) }

def recorded (w : World prim) (entry : FailedLogin) : World prim :=
  { w with failedLogins := w.failedLogins ++ [some entry] }

def lost (w : World prim) : World prim := { w with unrecorded := true }

def timed (w : World prim) (moment : DateTime) : World prim := { w with asked := w.asked.or (some moment) }

end World

/-- What is done at once is not cancelled. -/
def IoFault.AtOnce : IoFault → Prop
  | os _ => True
  | raised e => e ≠ .cancelled

/-- The lock answered, if only to refuse. -/
def isAnswer : Except Exn Response → Bool
  | .ok _ | .error (.ble (.operation _ _)) => true
  | _ => false

/-- How the surroundings answer. Only this tool writes the state directory and
the list of failed logins. A UserAuthBegin that was answered was handed over. -/
def surroundings : Surroundings (ToolOp prim) (ToolReply prim) (World prim) := fun w op reply after =>
  match op, reply with
  | .say line, .ok () => after = w.saying line
  | .say _, .error fault => fault.AtOnce ∧ after = w
  | .warn _, .ok () => after = w
  | .warn _, .error fault => fault.AtOnce ∧ after = w
  | .note n, () => after = w.noted n
  | .listState, .ok listed => listed = w.directory ∧ after = w
  | .listState, .error _ => after = w
  | .checkWritable, .ok () => after = w.made
  | .checkWritable, .error fault => fault.AtOnce ∧ (after = w ∨ after = w.made)
  | .writeState name data, .ok () => after = w.put name data
  | .writeState name data, .error fault => fault.AtOnce ∧
      (after = w ∨ after = w.made ∨ (∃ e, fault = .raised e) ∧ after = w.put name data)
  | .readFailedLogins, .ok log => log = w.failedLogins ∧ after = w
  | .readFailedLogins, .error _ => after = w
  | .recordFailedLogin entry, .ok () => after = w.recorded entry
  | .recordFailedLogin entry, .error fault => fault.AtOnce ∧
      (after = w.lost ∨ after = (w.recorded entry).lost)
  | .send command, reply => ∃ handed, (isAnswer reply = true → handed = true) ∧ after = w.answered handed command reply
  | .linkKeys, reply => after = w.settled reply
  | .generateKeyPair, pair => after = w.keyed pair
  | .now, moment => after = w.timed moment.val
  | .readFile _, _ | .nowIso, _ | .findAdvertisement, _ | .openTransport, _ | .connectSession, _
  | .closeSession, _ | .unavailable _, _ | .newDeviceId, _ => after = w

/-- No condition on what is called. -/
abbrev Following {α : Type} (p : ToolProgram prim α) (post : World prim → Except CliExn α → Prop)
    (w : World prim) : Prop :=
  p.Ensures surroundings (fun _ _ => True) post w

/-! Values for concrete runs: the front door's tool, and surroundings in which
only the lock is free to answer. -/

def lowerAscii (c : CodePoint) : CodePoint :=
  if 65 ≤ c.val ∧ c.val ≤ 90 then CodePoint.ofNat (c.val + 32) else c

/-- The digest is that of the front door's device id. -/
def frontDoorTool : Tool where
  maxDepth := 1000
  sha256 _ := [0x71, 0x92, 0x38, 0x5c, 0x3c, 0x06, 0x05, 0xde, 0x55, 0xbb, 0x94, 0x76, 0xce, 0x1d, 0x90, 0x74,
    0x81, 0x90, 0xec, 0xb3, 0x2a, 0x8e, 0xed, 0x7f, 0x52, 0x07, 0xb3, 0x0c, 0xf6, 0xa1, 0xfe, 0x89]
  casefold t := t.map lowerAscii
  directory := text "state"
  deep := by decide

def frontDoorAddress : Argument := ⟨text "AA:BB:CC:DD:EE:FF", unpaired_text _⟩

/-- The file `--state` names is the front door's. -/
def obliging (lock : CommandPayload → Except Exn Response) (w : World Primitives.scalarOne) :
    (op : ToolOp Primitives.scalarOne) → ToolReply Primitives.scalarOne op × World Primitives.scalarOne
  | .say line => (.ok (), w.saying line)
  | .warn _ => (.ok (), w)
  | .note n => ((), w.noted n)
  | .listState => (.ok w.directory, w)
  | .readFile _ => (.ok frontDoorData.file, w)
  | .checkWritable => (.ok (), w.made)
  | .writeState name data => (.ok (), w.put name data)
  | .nowIso => (⟨frontDoorData.saved, by decide⟩, w)
  | .now => (newYearUtc, w.timed newYearUtc.val)
  | .readFailedLogins => (.ok w.failedLogins, w)
  | .recordFailedLogin entry => (.ok (), w.recorded entry)
  | .findAdvertisement => (.ok (some ⟨[0, 0]⟩), w)
  | .openTransport => (.ok (text "23"), w)
  | .connectSession => (.ok [], w)
  | .closeSession => (.ok (), w)
  | .unavailable _ => (.ok none, w)
  | .send command => (lock command, w.answered true command (lock command))
  | .linkKeys => (.ok zeroLinkKeys, w.settled (.ok zeroLinkKeys))
  | .newDeviceId => (firstDeviceId, w)
  | .generateKeyPair => (⟨frontDoorFields.serverPrivateKey, []⟩, w.keyed ⟨frontDoorFields.serverPrivateKey, []⟩)

theorem surroundings_obliging (lock : CommandPayload → Except Exn Response) (w : World Primitives.scalarOne)
    (op : ToolOp Primitives.scalarOne) : surroundings w op (obliging lock w op).1 (obliging lock w op).2 := by
  cases op with
  | listState => exact ⟨rfl, rfl⟩
  | readFailedLogins => exact ⟨rfl, rfl⟩
  | send command => exact ⟨true, fun _ => rfl, rfl⟩
  | _ => rfl

end OnestiLock.Cli
