import OnestiLock.BluetoothFind
import OnestiLock.Redact

/-! Finding, connecting and opening a session over Home Assistant's Bluetooth
stack (`bluetooth.py`), as programs that may be cancelled at every await, with
`Session.__aenter__` and `__aexit__` (`session.py`) around the caller's block. -/

namespace OnestiLock

open Python

namespace Bluetooth

/-- What connecting can fail with. The text is that of the error; the last is
what `bleak_retry_connector` lets through, a cancellation among it. -/
inductive ConnectFault
  | timeout
  | outOfConnectionSlots (error : Text)
  | notFound (error : Text)
  | bleak (typeName error : Text)
  | other (e : Exn)

inductive Op
  | bluetoothLoaded
  | discoveredServiceInfo
  | registerCallback
  | wait (wanted : Wanted)
  | unregister
  | bleDevice (address : Text)
  | closeStaleConnections (address : Text)
  | establishConnection (address name : Text)
  | isConnected
  | newSession
  | connectSession
  | body
  | transportClose

section

variable (sha1 : Bytes → Bytes) (upper : Text → Text) (digits : DigitTable) (β : Type)

/-- What comes back. `connectSession` is what `Session.connect` awaits under its
`try`, `body` the caller's block. -/
def Reply : Op → Type
  | .bluetoothLoaded | .bleDevice _ | .isConnected => Bool
  | .discoveredServiceInfo => List ServiceInfo
  | .registerCallback | .unregister => Unit
  | .wait wanted => Waited sha1 upper wanted
  | .closeStaleConnections _ | .establishConnection _ _ => Except ConnectFault Unit
  | .newSession | .connectSession => Except Raised Unit
  | .body => Except Raised β
  | .transportClose => Option Exn

abbrev BluetoothProgram (α : Type) := Program Op (Reply sha1 upper β) Raised α

variable {sha1 upper β}

def raising {α : Type} : Except Raised α → BluetoothProgram sha1 upper β α := Program.ended

def requireBluetooth : BluetoothProgram sha1 upper β Unit :=
  .call .bluetoothLoaded (fun (loaded : Bool) =>
    if loaded = true then .done ()
    else .fail (.ble (text ("Home Assistant's Bluetooth integration is not set up, " ++
      "so no lock can be reached over Bluetooth"))))

def asyncDiscoveredLocks (wanted : Wanted) : BluetoothProgram sha1 upper β (List FoundLock) := do
  requireBluetooth
  .call .discoveredServiceInfo (fun (infos : List ServiceInfo) =>
    raising ((discoveredLocks sha1 upper wanted infos).mapError .validation))

/-- The wait under its timeout. -/
def waitForLock (wanted : Wanted) (timeout : Text) : BluetoothProgram sha1 upper β FoundLock :=
  .call (.wait wanted) (fun (waited : Waited sha1 upper wanted) =>
    match waited with
    | .set _ lock _ => .done lock
    | .timedOut _ =>
      .fail (.timeout (text "Did not see " ++ describe wanted ++ text " advertising within " ++ timeout ++ text " s"))
    | .cancelled _ => .fail (.other .cancelled))

/-- `async_find_lock`, with the timeout as its message shows it. -/
def asyncFindLock (wanted : Wanted) (timeout : Text) : BluetoothProgram sha1 upper β FoundLock := do
  let known ← asyncDiscoveredLocks wanted
  match known with
  | [] =>
    .call .registerCallback (fun _ =>
      (waitForLock wanted timeout).closing (.call .unregister (fun _ => .done ())))
  | [lock] => .done lock
  | known =>
    .fail (.ble (text s!"Found {known.length} locks where " ++ describe wanted ++
      text " was wanted; give the address of the one to use"))

/-- `transport.close()`, which a session's `close` comes down to. -/
def transportClose : BluetoothProgram sha1 upper β Unit :=
  .call .transportClose (fun (raised : Option Exn) =>
    match raised with
    | some e => .fail (.other e)
    | none => .done ())

end

end Bluetooth

end OnestiLock
