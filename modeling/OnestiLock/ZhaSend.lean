import OnestiLock.Coordinator
import OnestiLock.Errors
import OnestiLock.Program
import OnestiLock.Text

/-! `ZhaLockTransport.send` and `wake` (`zha.py`), as programs over the cluster
command and the lock service, which may come back with anything. -/

namespace OnestiLock

open Python

namespace Zha

abbrev Raised := { e : Exn // e.isException = true }

/-- What `str()` makes of an object, or the exception it raises. -/
abbrev Printed := Except Raised Text

theorem valueError_isException : (Exn.other "ValueError").isException = true := by decide

/-- `str(n)`. -/
def strInt (n : Int) : Printed :=
  if n.natAbs < 10 ^ maxStrDigits then .ok (text (toString n))
  else .error ⟨.other "ValueError", valueError_isException⟩

/-- A status that is not `None`: an `int`, a member of an integer enumeration,
or any other object, by what `== Status.SUCCESS`, `int()` and its name give. -/
inductive Status
  | integer (value : Int)
  | member (value : Int) (name : Text)
  | other (success : Bool) (number : Except Raised Int) (name : Printed)

namespace Status

def isSuccess : Status → Bool
  | integer value | member value _ => value == 0
  | other success _ _ => success

/-- `int(status)`. -/
def number : Status → Except Raised Int
  | integer value | member value _ => .ok value
  | other _ number _ => number

/-- `_status_name`. -/
def statusName : Status → Printed
  | integer value => strInt value
  | member _ name => .ok name
  | other _ _ name => name

end Status

/-- The fields of an answer that are looked at. -/
structure Answer where
  status : Option Status
  hasCommandId : Bool

/-- What a cluster command returns. -/
inductive Returned
  | nothing
  | answer (answer : Answer)
  | handedBack (exception : Printed)

/-- The end of a cluster command: a result, or an exception of one of the kinds
that are told apart. -/
inductive Attempt
  | returned (response : Returned)
  | indexError
  | timeoutError (error : Printed)
  | deliveryError (error : Printed)
  | zigbeeException (error : Printed)
  | exception (error : Printed)
  | cancelled

inductive Op (Params : Type)
  | cluster
  | command (command : Nat) (params : Params)
  | lastWake
  | findLockEntityId
  | monotonic
  | setLastWake (time : Option Nat)
  | lockService (entityId : String)
  | sleep (seconds : Nat)

abbrev Reply {Params : Type} : Op Params → Type
  | .cluster => Bool
  | .command _ _ => Attempt
  | .lastWake => Option Nat
  | .findLockEntityId => Except Exn (Option String)
  | .monotonic => Nat
  | .setLastWake _ => Unit
  | .lockService _ => Except Exn Unit
  | .sleep _ => Except Exn Unit

abbrev ZhaProgram (Params α : Type) := Program (Op Params) Reply Exn α

open Program

def setPinCommand : Nat := 0x0005
def setPinStatusMemoryFull : Int := 0x02
def setPinStatusDuplicateCode : Int := 0x03

/-- `except (TypeError, ValueError)`. -/
def isConversionError (e : Raised) : Bool := e.1 == .other "TypeError" || e.1 == .other "ValueError"

def rejectionOf (command : Nat) (response : Answer) (code : Option Int) : Rejection :=
  if command = setPinCommand ∧ response.hasCommandId = false then
    if code = some setPinStatusDuplicateCode then .duplicateCode
    else if code = some setPinStatusMemoryFull then .memoryFull
    else .other
  else .other

def rejected (command : Nat) (response : Answer) (status : Status) : Except Raised SendOutcome :=
  match status.number with
  | .ok code => .ok ⟨.rejected, some code, some (rejectionOf command response (some code))⟩
  | .error e =>
    if isConversionError e then .ok ⟨.rejected, none, some (rejectionOf command response none)⟩
    else .error e

/-- The log lines quote the exception handed back, or the name of the status. -/
def outcome (command : Nat) : Returned → Except Raised SendOutcome
  | .nothing => .ok .ofDelivered
  | .handedBack exception => exception.map (fun _ => .ofUnreached)
  | .answer response =>
    match response.status with
    | none => .ok .ofDelivered
    | some status =>
      if status.isSuccess then .ok .ofDelivered
      else (rejected command response status).bind (fun o => status.statusName.map (fun _ => o))

variable {Params α : Type}

def widen (x : Except Raised α) : Except Exn α := x.mapError Subtype.val

@[simp] theorem widen_ok (a : α) : widen (.ok a) = .ok a := rfl

@[simp] theorem widen_error (e : Raised) : widen (.error e : Except Raised α) = .error e.1 := rfl

def raising (x : Except Raised α) : ZhaProgram Params α := ended (widen x)

def findLockEntityId : ZhaProgram Params (Option String) :=
  .call .findLockEntityId (fun found => ended found)

def lockService (entityId : String) : ZhaProgram Params Unit :=
  .call (.lockService entityId) (fun called => ended called)

def sleep (seconds : Nat) : ZhaProgram Params Unit :=
  .call (.sleep seconds) (fun slept => ended slept)

def monotonic : ZhaProgram Params Nat := .call .monotonic .done

def setLastWake (time : Option Nat) : ZhaProgram Params Unit := .call (.setLastWake time) .done

def actuate : ZhaProgram Params Unit := do
  match ← findLockEntityId with
  | none => pure ()
  | some entityId => do
    let now ← monotonic
    setLastWake (some now)
    lockService entityId
    sleep 1

def wake : ZhaProgram Params Unit :=
  .call .lastWake (fun previousWake =>
    actuate.tryCatch (fun e => if e.isException then setLastWake previousWake else .fail e))

/-- The log lines quote every error but one that is tried again. -/
def sendRounds (command : Nat) (params : Params) : List Nat → ZhaProgram Params SendOutcome
  | [] => pure .ofUnreached
  | attempt :: later => .call (.command command params) (fun
    | .returned response => raising (outcome command response)
    | .indexError => pure .ofDelivered
    | .timeoutError error | .deliveryError error =>
      if attempt = 1 then do
        wake
        sendRounds command params later
      else raising (error.map (fun _ => .ofUnreached))
    | .zigbeeException error | .exception error => raising (error.map (fun _ => .ofUnreached))
    | .cancelled => .fail .cancelled)

def send (command : Nat) (params : Params) : ZhaProgram Params SendOutcome :=
  .call .cluster (fun found => if found then sendRounds command params [1, 2] else pure .ofUnreached)

/-! How a run is read: its attempts and its wakes, from the calls on record. -/

abbrev Call (Params : Type) := (op : Op Params) × Reply op

def attemptOf : Call Params → Option Attempt
  | ⟨.command _ _, attempt⟩ => some attempt
  | _ => none

def attempts (calls : List (Call Params)) : List Attempt := calls.filterMap attemptOf

def isWake : Call Params → Bool
  | ⟨.lastWake, _⟩ => true
  | _ => false

def wakes (calls : List (Call Params)) : Nat := calls.countP isWake

/-- The lock command of a wake, which moves the bolt. -/
def isActuation : Call Params → Bool
  | ⟨.lockService _, _⟩ => true
  | _ => false

def actuations (calls : List (Call Params)) : Nat := calls.countP isActuation

namespace Attempt

/-- The errors of a lock that sleeps. -/
def sleepy : Attempt → Bool
  | timeoutError _ | deliveryError _ => true
  | _ => false

/-- Nothing in it reads as a failure. -/
def unfailing : Attempt → Bool
  | returned .nothing | indexError => true
  | returned (.answer response) => response.status.all Status.isSuccess
  | _ => false

/-- An answer with a failure status. -/
def refusing : Attempt → Bool
  | returned (.answer response) => response.status.any (fun status => !status.isSuccess)
  | _ => false

/-- The failure status has a number, or `int()` says that it has none, and a
name; an error has a text. -/
def Quotable : Attempt → Prop
  | returned (.answer response) => ∀ status, response.status = some status → status.isSuccess = false →
      (∀ e, status.number = .error e → isConversionError e = true) ∧ ∃ name, status.statusName = .ok name
  | returned (.handedBack error) | timeoutError error | deliveryError error
  | zigbeeException error | exception error => ∃ t, error = .ok t
  | returned .nothing | indexError | cancelled => True

end Attempt

/-- What a run makes of its last attempt. -/
structure Settles (command : Nat) (last : Option Attempt) (out : Except Exn SendOutcome) : Prop where
  raises : ∀ e, out = .error e → e.isException = false
  delivered : (∃ o, out = .ok o ∧ o.delivery = .delivered) ↔ ∃ a, last = some a ∧ a.unfailing = true
  rejected : (∃ o, out = .ok o ∧ o.delivery = .rejected) ↔ ∃ a, last = some a ∧ a.refusing = true
  unreached : ∀ o, out = .ok o →
    (o.delivery = .unreached ↔ ∀ a, last = some a → a.unfailing = false ∧ a.refusing = false)
  ownResponse : ∀ o, out = .ok o →
    o.rejection = some .duplicateCode ∨ o.rejection = some .memoryFull →
    command = setPinCommand ∧
      ∃ response, last = some (.returned (.answer response)) ∧ response.hasCommandId = false

/-! One attempt that is not tried again. -/

/-- What `send` makes of it. -/
def conclusion (command : Nat) : Attempt → Except Exn SendOutcome
  | .returned response => widen (outcome command response)
  | .indexError => .ok .ofDelivered
  | .timeoutError error | .deliveryError error | .zigbeeException error | .exception error =>
    widen (error.map (fun _ => .ofUnreached))
  | .cancelled => .error .cancelled

theorem sendRounds_cons (command : Nat) (params : Params) (n : Nat) (later : List Nat) :
    sendRounds command params (n :: later) = .call (.command command params) (fun a =>
      if a.sleepy = true ∧ n = 1 then wake >>= (fun _ => sendRounds command params later)
      else ended (conclusion command a)) := by
  rw [sendRounds]
  refine congrArg (Program.call (Op.command command params)) (funext fun a => ?_)
  cases a <;> simp only [Attempt.sleepy, Bool.false_eq_true, false_and, if_false, true_and] <;> rfl

section

variable {command : Nat} {a : Attempt} {last : Option Attempt} {out : Except Exn SendOutcome}

theorem not_settles_raised (e : Raised) : ¬ Settles command last (.error e.1) := by
  intro h
  have hbase := h.raises e.1 rfl
  rw [e.2] at hbase
  cases hbase

theorem settles_stopped {e : Exn} (he : e.isException = false) (hu : a.unfailing = false)
    (hr : a.refusing = false) : Settles command (some a) (.error e) where
  raises e' h := by
    cases h
    exact he
  delivered := by simp [hu]
  rejected := by simp [hr]
  unreached o h := by cases h
  ownResponse o h := by cases h

theorem settles_delivered (hu : a.unfailing = true) (hr : a.refusing = false) :
    Settles command (some a) (.ok .ofDelivered) where
  raises e h := by cases h
  delivered := by simp [hu, SendOutcome.ofDelivered]
  rejected := by simp [hr, SendOutcome.ofDelivered]
  unreached := by simp [hu, SendOutcome.ofDelivered]
  ownResponse o h hrej := by
    cases h
    simp [SendOutcome.ofDelivered] at hrej

theorem settles_unreached (hlast : ∀ a, last = some a → a.unfailing = false ∧ a.refusing = false) :
    Settles command last (.ok .ofUnreached) where
  raises e h := by cases h
  delivered := by
    constructor
    · rintro ⟨o, ho, hd⟩
      cases ho
      cases hd
    · rintro ⟨a, ha, hu⟩
      rw [(hlast a ha).1] at hu
      cases hu
  rejected := by
    constructor
    · rintro ⟨o, ho, hd⟩
      cases ho
      cases hd
    · rintro ⟨a, ha, hr⟩
      rw [(hlast a ha).2] at hr
      cases hr
  unreached o h := by
    cases h
    exact ⟨fun _ => hlast, fun _ => rfl⟩
  ownResponse o h hrej := by
    cases h
    simp [SendOutcome.ofUnreached] at hrej

/-- An exception that stays inside `send` unless it cannot be quoted. -/
theorem settles_error_iff (hu : a.unfailing = false) (hr : a.refusing = false) (error : Printed) :
    Settles command (some a) (widen (error.map (fun _ => .ofUnreached))) ↔ ∃ t, error = .ok t := by
  cases error with
  | error e =>
    constructor
    · intro h
      exact absurd h (not_settles_raised e)
    · rintro ⟨t, ht⟩
      cases ht
  | ok t =>
    have hlast : ∀ b, some a = some b → b.unfailing = false ∧ b.refusing = false := by
      rintro b hb
      cases hb
      exact ⟨hu, hr⟩
    exact ⟨fun _ => ⟨t, rfl⟩, fun _ => settles_unreached hlast⟩

theorem rejectionOf_own {response : Answer} {code : Option Int}
    (h : rejectionOf command response code = .duplicateCode ∨ rejectionOf command response code = .memoryFull) :
    command = setPinCommand ∧ response.hasCommandId = false := by
  unfold rejectionOf at h
  split at h
  · assumption
  · rcases h with h | h <;> cases h

theorem settles_rejected {response : Answer} {status : Status} (hs : response.status = some status)
    (hfail : status.isSuccess = false) (code : Option Int) :
    Settles command (some (.returned (.answer response)))
      (.ok ⟨.rejected, code, some (rejectionOf command response code)⟩) where
  raises e h := by cases h
  delivered := by simp [Attempt.unfailing, hs, hfail]
  rejected := by simp [Attempt.refusing, hs, hfail]
  unreached := by simp [Attempt.refusing, hs, hfail]
  ownResponse o h hrej := by
    cases h
    have hown : command = setPinCommand ∧ response.hasCommandId = false :=
      rejectionOf_own (by simpa using hrej)
    exact ⟨hown.1, response, rfl, hown.2⟩

theorem settles_refused_iff {response : Answer} {status : Status} (hs : response.status = some status)
    (hfail : status.isSuccess = false) :
    Settles command (some (.returned (.answer response))) (widen (outcome command (.answer response))) ↔
      (∀ e, status.number = .error e → isConversionError e = true) ∧ ∃ name, status.statusName = .ok name := by
  simp only [outcome, hs, hfail, Bool.false_eq_true, if_false, rejected]
  cases hname : status.statusName with
  | error e =>
    have hraised : ∀ code, ¬ Settles command (some (.returned (.answer response)))
        (widen ((Except.ok ⟨.rejected, code, some (rejectionOf command response code)⟩).bind
          (fun o => Except.map (fun _ => o) (.error e : Printed)))) :=
      fun code h => not_settles_raised e h
    cases hnumber : status.number with
    | ok code => simpa using hraised (some code)
    | error f =>
      by_cases hf : isConversionError f = true
      · simpa [hf] using hraised none
      · simpa [hf, Except.bind] using not_settles_raised f
  | ok name =>
    cases hnumber : status.number with
    | ok code => simpa [Except.bind, Except.map] using settles_rejected hs hfail (some code)
    | error f =>
      by_cases hf : isConversionError f = true
      · simpa [hf, Except.bind, Except.map] using settles_rejected hs hfail none
      · simpa [hf, Except.bind] using not_settles_raised f

theorem settles_conclusion_iff (command : Nat) (a : Attempt) :
    Settles command (some a) (conclusion command a) ↔ a.Quotable := by
  cases a with
  | returned response =>
    cases response with
    | nothing => exact iff_of_true (settles_delivered rfl rfl) trivial
    | handedBack error => exact settles_error_iff rfl rfl error
    | answer response =>
      cases hs : response.status with
      | none =>
        have hout : conclusion command (.returned (.answer response)) = .ok .ofDelivered := by
          simp [conclusion, outcome, hs, widen, Except.mapError]
        rw [hout]
        have hsettled : Settles command (some (.returned (.answer response))) (.ok .ofDelivered) :=
          settles_delivered (by simp [Attempt.unfailing, hs]) (by simp [Attempt.refusing, hs])
        exact iff_of_true hsettled (fun status h => by rw [hs] at h; cases h)
      | some status =>
        cases hsuccess : status.isSuccess with
        | true =>
          have hout : conclusion command (.returned (.answer response)) = .ok .ofDelivered := by
            simp [conclusion, outcome, hs, hsuccess, widen, Except.mapError]
          rw [hout]
          have hsettled : Settles command (some (.returned (.answer response))) (.ok .ofDelivered) :=
            settles_delivered (by simp [Attempt.unfailing, hs, hsuccess])
              (by simp [Attempt.refusing, hs, hsuccess])
          refine iff_of_true hsettled (fun s h hfail => ?_)
          obtain rfl : status = s := Option.some.inj (hs.symm.trans h)
          rw [hsuccess] at hfail
          cases hfail
        | false =>
          refine (settles_refused_iff hs hsuccess).trans ⟨fun h s hs' _ => ?_, fun h => h status hs hsuccess⟩
          obtain rfl : status = s := Option.some.inj (hs.symm.trans hs')
          exact h
  | indexError => exact iff_of_true (settles_delivered rfl rfl) trivial
  | timeoutError error => exact settles_error_iff rfl rfl error
  | deliveryError error => exact settles_error_iff rfl rfl error
  | zigbeeException error => exact settles_error_iff rfl rfl error
  | exception error => exact settles_error_iff rfl rfl error
  | cancelled => exact iff_of_true (settles_stopped rfl rfl rfl) trivial

end

end Zha

end OnestiLock
