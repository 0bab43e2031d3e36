import OnestiLock.Wire

/-! Exceptions of the Bluetooth library (`ble/errors.py`), with their texts. -/

namespace OnestiLock

/-- Bytes from the lock that do not parse as the protocol says they should. -/
structure BleProtocolError where
  message : String
  deriving DecidableEq, Repr

/-- An argument the library refuses before anything is sent. -/
structure BleValidationError where
  message : String
  deriving DecidableEq, Repr

inductive BleError
  | validation (e : BleValidationError)
  | sessionState (message : String)
  | protocol (e : BleProtocolError)
  | operation (status command : Nat)
  | timeout (message : String) (cause : Option BleProtocolError)
  | disconnected (message : String)
  | firmwareTooOld (firmware required : FirmwareVersion)
  | featureUnavailable (command : CommandId) (feature : DeviceFeature)
      (firmware : FirmwareVersion) (model : Option Nat)
  deriving DecidableEq, Repr

/-- What can leave a Python call: an error of the library, a cancellation, or
any other exception by the name of its class. -/
inductive Exn
  | ble (e : BleError)
  | cancelled
  | other (name : String)
  deriving DecidableEq, Repr

/-- `Exception`, as opposed to a `BaseException` such as a cancellation. -/
def Exn.isException : Exn → Bool
  | ble _ => true
  | cancelled => false
  | other name => !(["KeyboardInterrupt", "SystemExit", "GeneratorExit"].contains name)

/-- The library's own result type. -/
abbrev BleResult (α : Type) := Except BleError α

/-- `BleSecurityError` is the subclass of `BleOperationError` for status 10. -/
def BleError.isSecurityError : BleError → Bool
  | operation status _ => status == statusSecurityError
  | _ => false

section Except

variable {ε α β : Type}

@[simp] theorem ok_bind (a : α) (f : α → Except ε β) : (Except.ok a >>= f) = f a := rfl

@[simp] theorem error_bind (e : ε) (f : α → Except ε β) :
    ((Except.error e : Except ε α) >>= f) = .error e := rfl

@[simp] theorem throw_eq_error (e : ε) : (throw e : Except ε α) = .error e := rfl

@[simp] theorem pure_eq_ok (a : α) : (pure a : Except ε α) = .ok a := rfl

theorem bind_eq_ok {x : Except ε α} {f : α → Except ε β} {b : β} :
    (x >>= f) = .ok b ↔ ∃ a, x = .ok a ∧ f a = .ok b := by
  cases x <;> simp

end Except

/-- An argument check that raises when it fails. -/
def require (c : Prop) [Decidable c] (message : String) : Except BleValidationError Unit :=
  if c then .ok () else .error ⟨message⟩

@[simp] theorem require_ok {c : Prop} [Decidable c] {message : String} {u : Unit} :
    require c message = .ok u ↔ c := by
  by_cases h : c <;> simp [require, h]

def validated {α : Type} : Except BleValidationError α → Except Exn α
  | .ok a => .ok a
  | .error e => .error (.ble (.validation e))

def parsed {α : Type} : Except BleProtocolError α → Except Exn α
  | .ok a => .ok a
  | .error e => .error (.ble (.protocol e))

@[simp] theorem validated_ok {α : Type} (a : α) : validated (.ok a) = .ok a := rfl

@[simp] theorem validated_error {α : Type} (e : BleValidationError) :
    validated (.error e : Except _ α) = .error (.ble (.validation e)) := rfl

theorem validated_eq_ok {α : Type} {x : Except BleValidationError α} {a : α} :
    validated x = .ok a ↔ x = .ok a := by
  cases x <;> simp

@[simp] theorem parsed_ok {α : Type} (a : α) : parsed (.ok a) = .ok a := rfl

@[simp] theorem parsed_error {α : Type} (e : BleProtocolError) :
    parsed (.error e : Except _ α) = .error (.ble (.protocol e)) := rfl

def responseName (responseId : Nat) : String :=
  (responseName? responseId).getD s!"unknown response 0x{hexByte responseId}"

/-- `error_for_status`: the exception for a failed status byte. The subclass
is told by the status, which every constructor use keeps. -/
def errorForStatus (status command : Nat) : BleError :=
  if status = statusSuccess then .validation ⟨"SUCCESS is not an error status"⟩
  else .operation status command

end OnestiLock
