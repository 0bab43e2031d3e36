import OnestiLock.CommandBuilders
import OnestiLock.Lines
import OnestiLock.LoginCommand
import OnestiLock.ResponseReadings

/-! The commands of the tool that change the lock: `operate`, `pin`, `rfid` and
`fingerprint` of `scripts/ble_cli.py`. -/

namespace OnestiLock.Cli

open Python Json Program

/-- The options of a write. -/
structure WriteArgs extends LoginArgs where
  /-- Whether the flag for slots that nobody has mapped was given. -/
  unverifiedSlot : Bool
  /-- `_answer_window`, as the format `g` shows it. -/
  window : Text

/-- How a PIN is entered, and what comes of it. -/
inductive PinEntry
  | stdin (line : String)
  | prompt (first again : String)
  | raised (e : Exn)

inductive PinAction
  | set (entry : PinEntry)
  | clear

inductive CredentialAction
  | scan
  | clear
  deriving DecidableEq

section

variable {prim : Primitives} (tool : Tool)

def unverifiedSlotFlag : String := "--i-know-the-slot-mapping-is-unverified"

def firstUncontestedPinSlot : Int := 805

/-- `EkeyOperationId`, by whether the door is to be locked. -/
def ekeyOperation (lock : Bool) : Int := if lock then 2 else 1

def ekeyOperationName (lock : Bool) : String := if lock then "LOCK" else "UNLOCK"

/-- `str.strip`. -/
def stripped (s : String) : String :=
  let isSpace := fun c => isWhitespace (CodePoint.ofChar c)
  String.ofList ((s.toList.dropWhile isSpace).rdropWhile isSpace)

/-- `read_pin`. -/
def readPin : PinEntry → Except CliExn String
  | .stdin line => .ok (stripped line)
  | .prompt first again =>
    if first = again then .ok first else .error (.cli (text "The two PINs differ; nothing was sent") exitRefused)
  | .raised e => .error (.exn e)

/-- `require_slot_acknowledgement`. -/
def requireSlotAcknowledgement (args : WriteArgs) (what : String) : ToolProgram prim Unit :=
  if args.unverifiedSlot then pure ()
  else refuse (text s!"{what} Pass {unverifiedSlotFlag} if that is what you mean.")

theorem listed_of_build {c : BuilderCall} {p : CommandPayload} (h : c.build = .ok p)
    (hlisted : c.commandId ∈ writeCommands) : p.commandId ∈ writeCommands := by
  obtain ⟨-, rfl⟩ := BuilderCall.build_eq_ok.mp h
  exact hlisted

/-- `_validated`, of a builder whose command is a write. -/
def validatedWrite (c : BuilderCall) (hlisted : c.commandId ∈ writeCommands) :
    ToolProgram prim { p : CommandPayload // p.commandId ∈ writeCommands } :=
  match h : c.build with
  | .ok p => .done ⟨p, listed_of_build h hlisted⟩
  | .error e => refuse (text e.message)

/-- `LockStatusId`, by value. -/
def lockStatusNames : List String :=
  ["OK", "ERROR", "UNKNOWN_COMMAND", "CRC_ERROR", "INVALID_DATA", "NO_SPACE_LEFT", "NO_MATCH"]

/-- `_format_scan`. -/
def formatScan (result : ScanResult) : Text :=
  let status := match result.status with
    | .known status => (lockStatusNames[status]?).getD (toString status)
    | .raw status => toString status
  text s!"slot {result.slot}, result {status}"

/-! What the commands are told to send. -/

theorem operate_listed (lock : Bool) : (BuilderCall.ekeyOperate (ekeyOperation lock)).commandId ∈ writeCommands :=
  List.mem_of_elem_eq_true rfl

theorem pinSet_listed (slot : Int) (pin : String) :
    (BuilderCall.pinCodeSet slot pin false).commandId ∈ writeCommands := List.mem_of_elem_eq_true rfl

theorem pinClear_listed (slot : Int) : (BuilderCall.pinCodeClear slot).commandId ∈ writeCommands :=
  List.mem_of_elem_eq_true rfl

/-- What `rfid` sends. -/
def rfidCall (slot : Int) : CredentialAction → BuilderCall
  | .scan => .scanRfidCode slot
  | .clear => .rfidCodeClear slot

/-- What `fingerprint` sends. -/
def fingerprintCall (slot : Int) : CredentialAction → BuilderCall
  | .scan => .fingerprintScan slot
  | .clear => .fingerprintClear slot

theorem rfid_listed (slot : Int) (action : CredentialAction) : (rfidCall slot action).commandId ∈ writeCommands := by
  cases action <;> exact List.mem_of_elem_eq_true rfl

theorem fingerprint_listed (slot : Int) (action : CredentialAction) :
    (fingerprintCall slot action).commandId ∈ writeCommands := by
  cases action <;> exact List.mem_of_elem_eq_true rfl

def operateDescription (lock : Bool) : Text :=
  text s!"send EkeyOperate {ekeyOperationName lock}: the bolt moves. Stand at the door."

def pinSetDescription (slot : Int) (pin : String) : Text :=
  text s!"send PinCodeSet for slot {slot}, a PIN of {pin.length} digits. Check it on the keypad afterwards."

def pinPromptDescription (slot : Int) : Text :=
  text s!"send PinCodeSet for slot {slot} with a PIN you type at a prompt"

def pinClearDescription (slot : Int) : Text := text s!"send PinCodeClear for slot {slot}"

def rfidDescription (slot : Int) : CredentialAction → Text
  | .scan => text s!"send ScanRfidCode for slot {slot}: the lock waits for a tag"
  | .clear => text s!"send RfidCodeClear for slot {slot}"

def fingerprintDescription (slot : Int) : CredentialAction → Text
  | .scan => text s!"send FingerprintScan for slot {slot}: the lock waits for a finger"
  | .clear => text s!"send FingerprintClear for slot {slot}"

/-! The commands. -/

/-- `cmd_operate`. -/
def cmdOperate (args : WriteArgs) (lock : Bool) : ToolProgram prim Nat := do
  let payload ← validatedWrite (.ekeyOperate (ekeyOperation lock)) (operate_listed lock)
  runWrite tool args.toLoginArgs ⟨payload.val, operateDescription lock, none, none, payload.property⟩

def contestedSlot (slot : Int) : String :=
  s!"BLE slot {slot} is one of the slots the two readings in docs/slot-numbering.md disagree about: it is Zigbee slot {slot - 800} under one and {slot - 797} under the other, so it can be a master slot or a code someone uses to get in. Nothing reads a slot back, so this cannot be checked first. Slot {firstUncontestedPinSlot} and up is past both."

/-- `cmd_pin`. The PIN is asked for only if it may be sent. -/
def cmdPin (args : WriteArgs) (slot : Int) (action : PinAction) : ToolProgram prim Nat := do
  let _ ← validatedWrite (.pinCodeClear slot) (pinClear_listed slot)
  if slot < firstUncontestedPinSlot then requireSlotAcknowledgement args (contestedSlot slot) else pure ()
  match action with
  | .clear => do
    let payload ← validatedWrite (.pinCodeClear slot) (pinClear_listed slot)
    runWrite tool args.toLoginArgs ⟨payload.val, pinClearDescription slot, none, none, payload.property⟩
  | .set entry =>
    if args.yes = false then do
      let login ← resolveLogin tool args.toLoginArgs
      let _ ← confirm args.address (some login.description) [pinPromptDescription slot] args.yes
      pure exitRefused
    else do
      let pin ← cliRaising (readPin entry)
      let payload ← validatedWrite (.pinCodeSet slot pin false) (pinSet_listed slot pin)
      runWrite tool args.toLoginArgs ⟨payload.val, pinSetDescription slot pin, none, none, payload.property⟩

/-- `cmd_rfid`. -/
def cmdRfid (args : WriteArgs) (slot : Int) (action : CredentialAction) : ToolProgram prim Nat := do
  let payload ← validatedWrite (rfidCall slot action) (rfid_listed slot action)
  match action with
  | .clear => do
    requireSlotAcknowledgement args s!"RfidCodeClear deletes whatever tag is in slot {slot}, and nobody has mapped the RFID slot numbering: no command reads a slot back, so which tag this is cannot be checked first. A deleted tag has to be held to the lock again to come back, with the tag in hand."
    runWrite tool args.toLoginArgs ⟨payload.val, rfidDescription slot .clear, none, none, payload.property⟩
  | .scan =>
    runWrite tool args.toLoginArgs ⟨payload.val, rfidDescription slot .scan,
      some (fun r => formatScan <$> parseScanRfidCode r),
      some (text "Hold the tag to the lock within " ++ args.window ++ text " s."), payload.property⟩

/-- `cmd_fingerprint`. -/
def cmdFingerprint (args : WriteArgs) (slot : Int) (action : CredentialAction) : ToolProgram prim Nat := do
  let payload ← validatedWrite (fingerprintCall slot action) (fingerprint_listed slot action)
  match action with
  | .clear => do
    requireSlotAcknowledgement args s!"FingerprintClear deletes whatever finger is in slot {slot}, and nobody has mapped the fingerprint slot numbering: no command reads a slot back, so whose finger this is cannot be checked first. A deleted fingerprint only comes back by enrolling it on the lock again, with that person present."
    runWrite tool args.toLoginArgs ⟨payload.val, fingerprintDescription slot .clear, none, none, payload.property⟩
  | .scan =>
    runWrite tool args.toLoginArgs ⟨payload.val, fingerprintDescription slot .scan,
      some (fun r => formatScan <$> parseFingerprintScan r),
      some (text "Put the finger on the reader within " ++ args.window ++ text " s, as often as the lock asks."),
      payload.property⟩

end

inductive WriteCommand
  | operate (lock : Bool)
  | pin (slot : Int) (action : PinAction)
  | rfid (slot : Int) (action : CredentialAction)
  | fingerprint (slot : Int) (action : CredentialAction)

namespace WriteCommand

def run {prim : Primitives} (tool : Tool) (args : WriteArgs) : WriteCommand → ToolProgram prim Nat
  | operate lock => cmdOperate tool args lock
  | pin slot action => cmdPin tool args slot action
  | rfid slot action => cmdRfid tool args slot action
  | fingerprint slot action => cmdFingerprint tool args slot action

/-- Nobody knows for certain what is in the slot. -/
def guesses : WriteCommand → Bool
  | operate _ => false
  | pin slot _ => decide (slot < firstUncontestedPinSlot)
  | rfid _ action | fingerprint _ action => decide (action = .clear)

end WriteCommand

/-! What a command asks for, in the user's terms. -/

/-- What the lock is to be told, and how that is announced. -/
structure Request where
  call : BuilderCall
  description : Text

/-- None, if the PIN that is needed was not entered. -/
def WriteCommand.request : WriteCommand → Option Request
  | operate lock => some ⟨.ekeyOperate (ekeyOperation lock), operateDescription lock⟩
  | pin slot .clear => some ⟨.pinCodeClear slot, pinClearDescription slot⟩
  | pin slot (.set entry) =>
    (readPin entry).toOption.map (fun pin => ⟨.pinCodeSet slot pin false, pinSetDescription slot pin⟩)
  | rfid slot action => some ⟨rfidCall slot action, rfidDescription slot action⟩
  | fingerprint slot action => some ⟨fingerprintCall slot action, fingerprintDescription slot action⟩

end OnestiLock.Cli
