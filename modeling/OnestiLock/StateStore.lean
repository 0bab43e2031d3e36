import OnestiLock.Enrollment
import OnestiLock.Json

/-! The state files of the command line tool: `Enrollment.from_dict`, and
`StateStore.load` and `all` of `ble_cli.py`. -/

namespace OnestiLock

open Python Json

/-! Reading a stored enrollment. -/

/-- What leaves `from_dict`: a refusal, or an exception of another class. -/
inductive DictFault
  | refused (e : BleValidationError)
  | raised (name : String)
  deriving DecidableEq, Repr

def isAsciiSpace (c : CodePoint) : Bool := c.val == 32 || (decide (9 ≤ c.val) && decide (c.val ≤ 13))

/-- `bytes.fromhex`; `none` is a `ValueError`. -/
def bytesFromHex : Text → Option Bytes
  | [] => some []
  | c :: rest =>
    if isAsciiSpace c then bytesFromHex rest
    else
      match rest with
      | [] => none
      | d :: rest =>
        (hexValue c).bind (fun high => (hexValue d).bind (fun low =>
          (bytesFromHex rest).map (fun l => UInt8.ofNat (16 * high + low) :: l)))

/-- `_hex_field`. -/
def hexField (fields : List (Text × Value)) (key : String) : Except DictFault Bytes :=
  let refusal := DictFault.refused ⟨s!"Enrollment field {key} is not a hex string"⟩
  match get fields (text key) with
  | .str s => (bytesFromHex s).elim (.error refusal) .ok
  | _ => .error refusal

def optionalHexField (fields : List (Text × Value)) (key : String) : Except DictFault (Option Bytes) :=
  match get fields (text key) with
  | .null => .ok none
  | _ => (hexField fields key).map some

/-- `EnrollmentStep(value)`. -/
def stepOf : Value → Option EnrollmentStep
  | .str s => EnrollmentStep.all.find? (fun step => text step.value == s)
  | _ => none

/-- A text as the name of a lock. A lone surrogate stays outside of ASCII. -/
def nameOf (t : Text) : String :=
  String.ofList (t.map (fun c => if c.val.isValidChar then Char.ofNat c.val else '\ufffd'))

def completedSteps (fields : List (Text × Value)) : Except DictFault (Finset EnrollmentStep) :=
  match get fields (text "completed") with
  | .list items =>
    match items.mapM stepOf with
    | some steps => .ok steps.toFinset
    | none => .error (.refused ⟨"Enrollment field completed names an unknown step"⟩)
  | _ => .error (.refused ⟨"Enrollment field completed is not a list"⟩)

def nameField (fields : List (Text × Value)) : Except DictFault String :=
  match get fields (text "name") with
  | .str s => .ok (nameOf s)
  | _ => .error (.refused ⟨"Enrollment field name is not a string"⟩)

/-- A `bool` is an `int`. -/
def userIdField (fields : List (Text × Value)) : Except DictFault Int :=
  match get fields (text "user_id") with
  | .int n => .ok n
  | .bool b => .ok (if b then 1 else 0)
  | _ => .error (.refused ⟨"Enrollment field user_id is not an integer"⟩)

/-- `format not in READABLE_ENROLLMENT_FORMATS`, a set. -/
def checkFormat (fields : List (Text × Value)) : Except DictFault Unit :=
  let format := get fields (text "format")
  if format.hashable = false then .error (.raised "TypeError")
  else if format.isTwoPow 0 ∨ format.isTwoPow 1 then .ok ()
  else .error (.refused ⟨"Unsupported enrollment format, expected one of [1, 2]"⟩)

variable (prim : Primitives)

def constructed (fields : EnrollmentFields) : Except DictFault (Enrollment prim) :=
  match Enrollment.ofFields prim fields with
  | .ok enrollment => .ok enrollment
  | .error e => .error (.refused e)

/-- `Enrollment.from_dict`. What is no dict has no `get`. -/
def enrollmentFromDict : Value → Except DictFault (Enrollment prim)
  | .object fields => do
    checkFormat fields
    let completed ← completedSteps fields
    let name ← nameField fields
    let userId ← userIdField fields
    let deviceId ← hexField fields "device_id"
    let ownerKey ← hexField fields "owner_key"
    let serverPrivateKey ← hexField fields "server_private_key"
    let lockServerPublicKey ← optionalHexField fields "lock_server_public_key"
    let updatePrivateKey ← optionalHexField fields "update_private_key"
    let lockUpdatePublicKey ← optionalHexField fields "lock_update_public_key"
    constructed prim
      { deviceId, ownerKey, serverPrivateKey, name, lockServerPublicKey, updatePrivateKey,
        lockUpdatePublicKey, completed, userId }
  | _ => .error (.raised "AttributeError")

/-! The state directory. -/

/-- What leaves a function of the command line tool: a `CliError`, or an
exception of another class. -/
inductive CliExn
  | cli (message : Text) (exitCode : Nat)
  | exn (e : Exn)
  deriving DecidableEq, Repr

def exitFailed : Nat := 1

structure StoredLock where
  path : Text
  enrollment : Enrollment prim
  address : Option Text

/-- What reading a file gives: its bytes, or the text of an `OSError`. -/
abbrev File := Except Text Bytes

/-- The rest of `load`, once the file has been read as JSON. -/
def readState (path : Text) : Value → Except CliExn (StoredLock prim)
  | .object fields =>
    if (get fields (text "format")).isTwoPow 0 then
      let stored := get fields (text "enrollment")
      match enrollmentFromDict prim (if stored.truthy then stored else .object []) with
      | .ok enrollment =>
        .ok ⟨path, enrollment, match get fields (text "address") with
          | .str address => some address
          | _ => none⟩
      | .error (.refused e) => .error (.cli (path ++ text ": " ++ text e.message) exitFailed)
      | .error (.raised name) => .error (.exn (.other name))
    else .error (.cli (path ++ text " is not a state file this tool wrote (format 1)") exitFailed)
  | _ => .error (.cli (path ++ text " is not a state file this tool wrote (format 1)") exitFailed)

/-- `StateStore.load`. -/
def load (maxDepth : Nat) (path : Text) : File → Except CliExn (StoredLock prim)
  | .error strerror => .error (.cli (text "Cannot read " ++ path ++ text ": " ++ strerror) exitFailed)
  | .ok bytes =>
    match decodeUtf8 bytes with
    | none => .error (.exn (.other "UnicodeDecodeError"))
    | some t =>
      match loads maxDepth t with
      | .ok data => readState prim path data
      | .error .malformed => .error (.cli (path ++ text " is not valid JSON") exitFailed)
      | .error .longInteger => .error (.exn (.other "ValueError"))
      | .error .tooDeep => .error (.exn (.other "RecursionError"))

/-- The files of a directory, in the order it lists them. -/
abbrev Directory := List (Text × File)

/-- `sorted(directory.glob("*.json"))`. -/
def jsonFiles (files : Directory) : Directory :=
  (files.filter (fun f => (text ".json").isSuffixOf f.1)).mergeSort (fun a b => Text.le a.1 b.1)

/-- A file that is refused is skipped. -/
def loadAll (maxDepth : Nat) (directory : Text) : Directory → Except CliExn (List (StoredLock prim))
  | [] => .ok []
  | (name, file) :: rest =>
    match load prim maxDepth (directory ++ text "/" ++ name) file with
    | .ok stored => (loadAll maxDepth directory rest).map (fun l => stored :: l)
    | .error (.cli _ _) => loadAll maxDepth directory rest
    | .error (.exn e) => .error (.exn e)

/-- `StateStore.all`; `none` is a path that is no directory. -/
def storedLocks (maxDepth : Nat) (directory : Text) : Option Directory → Except CliExn (List (StoredLock prim))
  | none => .ok []
  | some files => loadAll prim maxDepth directory (jsonFiles files)

end OnestiLock
