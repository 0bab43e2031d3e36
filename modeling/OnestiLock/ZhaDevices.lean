import OnestiLock.Text

/-! What the integration asks of ZHA's device list (`zha.py`). Home Assistant's
gateway is a list of devices, or nothing while ZHA is not running. -/

namespace OnestiLock

open Python

/-- One ZHA device: its address as `str` writes it, what it says of itself, and
whether it has the Door Lock cluster. -/
structure ZhaDevice where
  ieee : Text
  manufacturer : Option Text
  model : Option Text
  doorLock : Bool
  deriving DecidableEq

abbrev Gateway := Option (List ZhaDevice)

def manufacturer : Text := text "Onesti Products AS"

def isZhaLoaded (gateway : Gateway) : Bool := gateway.isSome

def iterDeviceProxies (gateway : Gateway) : List ZhaDevice := gateway.getD []

def iterOnestiLocks (gateway : Gateway) : List (Text × Option Text) :=
  (iterDeviceProxies gateway).filterMap (fun device =>
    if device.manufacturer ≠ some manufacturer ∨ device.doorLock = false then none
    else some (device.ieee, device.model))

end OnestiLock
