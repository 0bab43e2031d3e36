import OnestiLock.Enrollment

/-! A resume together with what its exceptions were raised under: a second
login runs in the handler of the first one's refusal. -/

namespace OnestiLock

open Program

variable {prim : Primitives}

/-- An exception, and the refusal in whose handler it was raised. -/
structure Raised (prim : Primitives) where
  exn : EnrollmentExn prim
  context : Option Exn

abbrev RaisingProgram (prim : Primitives) (α : Type) :=
  Program (EnrollmentOp prim) (EnrollmentReply prim) (Raised prim) α

/-- Raised under this. -/
def raisedIn {α : Type} (context : Option Exn) (p : EnrollmentProgram prim α) : RaisingProgram prim α :=
  p.both (fun out => ended (out.mapError (fun x => ⟨x, context⟩)))

/-- `_log_in_to_resume`. -/
def logInRaising (enrollment : Enrollment prim) : RaisingProgram prim (Option (Enrollment prim)) :=
  (authenticateOwner enrollment.ownerCredential).both (fun out =>
    match out with
    | .ok () => .done none
    | .error (.plain (.ble b)) =>
      if b.isSecurityError = false then .fail ⟨.plain (.ble b), none⟩
      else if .deviceId ∈ enrollment.completed then .fail ⟨.plain (.ble b), none⟩
      else raisedIn (some (.ble b)) (do
        authenticateOwner enrollment.enrolledCredential
        let loggedIn ← confirm enrollment .deviceId enrollment.lockServerPublicKey
        pure (some loggedIn))
    | .error x => .fail ⟨x, none⟩)

/-- `resume_enrollment`. -/
def resumeRaising (enrollment : Enrollment prim) (now : Option DateTime) :
    RaisingProgram prim (Enrollment prim) :=
  if enrollment.complete then .done enrollment
  else
    logInRaising enrollment >>= fun loggedIn => raisedIn none
      (match loggedIn with
      | none => runRemaining enrollment now
      | some loggedIn => do
        save .deviceId loggedIn
        runRemaining loggedIn now)

/-! Without the contexts it is the resume as it was. -/

/-- The program with its exceptions alone. -/
def forgetting {α : Type} (p : RaisingProgram prim α) : EnrollmentProgram prim α :=
  p.both (fun out => ended (out.mapError Raised.exn))

theorem forgetting_raisedIn {α : Type} (context : Option Exn) (p : EnrollmentProgram prim α) :
    forgetting (raisedIn context p) = p := by
  induction p with
  | done a => rfl
  | fail e => rfl
  | call op next ih => exact congrArg (Program.call op) (funext ih)

theorem forgetting_bind {α β : Type} (p : RaisingProgram prim α) (f : α → RaisingProgram prim β) :
    forgetting (p >>= f) = forgetting p >>= fun a => forgetting (f a) := by
  induction p with
  | done a => rfl
  | fail e => rfl
  | call op next ih => exact congrArg (Program.call op) (funext ih)

theorem forgetting_logInRaising (e : Enrollment prim) : forgetting (logInRaising e) = logInToResume e := by
  have hboth : ∀ (p : EnrollmentProgram prim Unit) (f : Except (EnrollmentExn prim) Unit →
      RaisingProgram prim (Option (Enrollment prim))) (handler : BleError →
      EnrollmentProgram prim (Option (Enrollment prim))), f (.ok ()) = .done none →
      (∀ b, forgetting (f (.error (.plain (.ble b)))) = handler b) →
      (∀ x, (∀ b, x ≠ .plain (.ble b)) → f (.error x) = .fail ⟨x, none⟩) →
      forgetting (p.both f) = catchBle (p >>= fun _ => pure none) handler := by
    intro p f handler hok hble hother
    induction p with
    | done a =>
      show forgetting (f (.ok ())) = _
      rw [hok]
      rfl
    | fail x =>
      show forgetting (f (.error x)) = _
      cases x with
      | plain y =>
        cases y with
        | ble b => exact hble b
        | _ =>
          rw [hother _ (by simp)]
          rfl
      | _ =>
        rw [hother _ (by simp)]
        rfl
    | call op next ih => exact congrArg (Program.call op) (funext ih)
  refine hboth _ _ _ rfl (fun b => ?_) (fun x hx => ?_)
  · by_cases hb : b.isSecurityError = false
    · simp only [if_pos hb]
      rfl
    · simp only [if_neg hb]
      by_cases hmem : .deviceId ∈ e.completed
      · simp only [if_pos hmem]
        rfl
      · simp only [if_neg hmem]
        exact forgetting_raisedIn _ _
  · cases x with
    | plain y =>
      cases y with
      | ble b => exact absurd rfl (hx b)
      | _ => rfl
    | _ => rfl

theorem forgetting_resumeRaising (e : Enrollment prim) (now : Option DateTime) :
    forgetting (resumeRaising e now) = resumeEnrollment e now := by
  rw [resumeRaising, resumeEnrollment]
  by_cases hc : e.complete = true
  · rw [if_pos hc, if_pos hc]
    rfl
  · rw [if_neg hc, if_neg hc, forgetting_bind, forgetting_logInRaising]
    refine congrArg (logInToResume e >>= ·) (funext (fun loggedIn => ?_))
    refine (forgetting_raisedIn none _).trans ?_
    cases loggedIn <;> rfl

/-- What is followed without the contexts is followed with them. -/
theorem ensures_of_forgetting {σ α : Type} {env : Surroundings (EnrollmentOp prim) (EnrollmentReply prim) σ}
    {guard : σ → EnrollmentOp prim → Prop} {post : σ → Except (EnrollmentExn prim) α → Prop} {s : σ}
    {p : RaisingProgram prim α} (h : (forgetting p).Ensures env guard post s) :
    p.Ensures env guard (fun s out => post s (out.mapError Raised.exn)) s := by
  induction p generalizing s with
  | done a => exact h
  | fail e => exact h
  | call op next ih => exact ⟨h.1, fun r s' hr => ih r (h.2 r s' hr)⟩

end OnestiLock
