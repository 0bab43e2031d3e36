import OnestiLock.CommandRuns
import OnestiLock.EnrollmentCalls
import OnestiLock.EnrollmentContext
import OnestiLock.FakeLockRules

/-! The logins that an enrollment or a resume makes, and how each of them
ended, seen from how the library ended. -/

namespace OnestiLock.Cli

open Program

variable {prim : Primitives} {α : Type}

/-- The lock answered the login with a refusal. -/
def Attempt.Refused (a : Attempt) : Prop :=
  ∃ status command, a.outcome = some (.error (.ble (.operation status command)))

/-- It reached the transport, and it failed. -/
def Attempt.Spent (a : Attempt) : Prop := a.handed = true ∧ ∃ b, a.outcome = some (.error (.ble b))

theorem settleLast_append (attempts : List Attempt) (handed : Bool) (outcome : Except Exn Unit) :
    settleLast outcome (attempts ++ [⟨handed, none⟩]) = attempts ++ [⟨handed, some outcome⟩] := by
  induction attempts with
  | nil => rfl
  | cons a rest ih =>
    cases rest with
    | nil => rfl
    | cons b rest => exact congrArg (a :: ·) ih

/-- The surroundings answer, and the logins are on record. The tool's key pairs
never fail. -/
def loggingIn : Surroundings (EnrollmentOp prim) (EnrollmentReply prim) (List Attempt) :=
  fun attempts op reply after =>
    match op, reply with
    | .send command, reply => ∃ handed, (isAnswer reply = true → handed = true) ∧
        after = attemptsAfter attempts handed command reply
    | .linkKeys, .ok _ => after = attempts
    | .linkKeys, .error x => after = settleLast (.error x) attempts
    | .keyPairFactory, .ok _ => after = attempts
    | .keyPairFactory, .error _ => False
    | .newDeviceId, _ | .save _, _ | .now, _ => after = attempts

/-- No condition on what is called. -/
abbrev Tracking (p : EnrollmentProgram prim α) (post : List Attempt → Except (EnrollmentExn prim) α → Prop)
    (attempts : List Attempt) : Prop :=
  p.Ensures loggingIn (fun _ _ => True) post attempts

/-! A login. -/

/-- The login that was made ended as the library did. What the lock answered,
it was handed. -/
def LoggedIn (attempts after : List Attempt) (out : Except (EnrollmentExn prim) Unit) : Prop :=
  ∃ handed result, after = attempts ++ [⟨handed, some result⟩] ∧ out = result.mapError EnrollmentExn.plain ∧
    (handed = true ∨ ∃ x, result = .error x ∧ ∀ status command, x ≠ .ble (.operation status command))

theorem authenticateOwner_tracking (credential : OwnerCredential) (attempts : List Attempt) :
    Tracking (authenticateOwner credential : EnrollmentProgram prim Unit) (LoggedIn attempts) attempts := by
  obtain ⟨user, -, hbegin⟩ := userAuthBegin_ok credential
  have hsettled : ∀ x : Exn, LoggedIn attempts (settleLast (.error x) (attempts ++ [⟨true, none⟩]))
      (.error (.plain x) : Except (EnrollmentExn prim) Unit) := by
    intro x
    exact ⟨true, .error x, settleLast_append attempts true (.error x), rfl, Or.inl rfl⟩
  have hrequest : Tracking (request (userAuthBegin credential.userId credential.deviceId) parseUserAuthBegin)
      (fun after out =>
        match out with
        | .ok challenge => challenge.length = challengeLength ∧ after = attempts ++ [⟨true, none⟩]
        | .error x => LoggedIn attempts after (.error x : Except (EnrollmentExn prim) Unit)) attempts := by
    rw [hbegin]
    refine ensures_request (by simp) (fun _ _ => trivial) ?_ ?_ ?_
    · rintro c r after challenge ⟨⟩ ⟨handed, hhanded, rfl⟩ hparse
      obtain rfl : handed = true := hhanded rfl
      exact ⟨parseBytes_length hparse, by simp [attemptsAfter, opened, hparse]⟩
    · rintro c r after b ⟨⟩ ⟨handed, hhanded, rfl⟩ hparse
      obtain rfl : handed = true := hhanded rfl
      exact ⟨true, .error (.ble b), by simp [attemptsAfter, opened, hparse], rfl, Or.inl rfl⟩
    · rintro c x after ⟨⟩ ⟨handed, hhanded, rfl⟩
      refine ⟨handed, .error x, by simp [attemptsAfter, opened], rfl, ?_⟩
      cases handed with
      | true => exact Or.inl rfl
      | false =>
        refine Or.inr ⟨x, rfl, fun status command hx => ?_⟩
        subst hx
        exact absurd (hhanded rfl) (by decide)
  refine hrequest.bind ?_ (fun after x hin => hin)
  rintro after challenge ⟨hchallenge, rfl⟩
  have hkeys : Tracking (linkKeys : EnrollmentProgram prim LinkKeys) (fun after out =>
      match out with
      | .ok _ => after = attempts ++ [⟨true, none⟩]
      | .error x => LoggedIn attempts after (.error x : Except (EnrollmentExn prim) Unit))
      (attempts ++ [⟨true, none⟩]) := by
    refine ensures_linkKeys trivial (fun keys after hin => hin) ?_
    rintro x after rfl
    exact hsettled x
  refine hkeys.bind ?_ (fun after x hin => hin)
  rintro after keys rfl
  obtain ⟨given, hanswer, hgiven⟩ : ∃ given,
      answerOwnerChallenge prim challenge credential.key keys.iv = .ok given ∧ given.length = challengeLength :=
    answerOwnerChallenge_ok hchallenge credential.key_length keys.iv_length
  have hfinalize : Tracking (sendCommand (userAuthFinalize given)) (fun after out =>
      LoggedIn attempts after (out.map (fun _ => ()) : Except (EnrollmentExn prim) Unit))
      (attempts ++ [⟨true, none⟩]) := by
    rw [userAuthFinalize_ok hgiven]
    refine ensures_sendCommand (by simp) (fun _ _ => trivial) ?_ ?_
    · rintro c r after ⟨⟩ ⟨handed, -, rfl⟩
      exact ⟨true, .ok (), settleLast_append attempts true (.ok ()), rfl, Or.inl rfl⟩
    · rintro c x after ⟨⟩ ⟨handed, -, rfl⟩
      exact hsettled x
  simp only [hanswer]
  exact hfinalize.bind (fun after r hin => hin) (fun after x hin => hin)

/-! What comes before and after the logins. -/

def Unrefused (out : Except (EnrollmentExn prim) α) : Prop :=
  ∀ status command, out ≠ .error (.plain (.ble (.operation status command)))

/-- It makes no login, and no refusal leaves it. -/
abbrev Unrefusing (p : EnrollmentProgram prim α) : Prop :=
  ∀ attempts, Tracking p (fun after out => after = attempts ∧ Unrefused out) attempts

theorem unrefused_ok (a : α) : Unrefused (.ok a : Except (EnrollmentExn prim) α) := by
  intro status command h
  cases h

theorem Unrefused.error {β : Type} {x : EnrollmentExn prim} (h : Unrefused (.error x : Except _ α)) :
    Unrefused (.error x : Except _ β) := by
  intro status command hx
  cases hx
  exact h status command rfl

theorem unrefusing_bind {β : Type} {p : EnrollmentProgram prim α} {f : α → EnrollmentProgram prim β}
    (h : Unrefusing p) (hf : ∀ a, Unrefusing (f a)) : Unrefusing (p >>= f) := by
  intro attempts
  refine (h attempts).bind ?_ ?_
  · rintro after a ⟨rfl, -⟩
    exact hf a after
  · rintro after x ⟨rfl, hx⟩
    exact ⟨rfl, hx.error⟩

theorem unrefusing_pure (a : α) : Unrefusing (pure a : EnrollmentProgram prim α) :=
  fun _ => ⟨rfl, unrefused_ok a⟩

theorem unrefusing_validated (x : Except BleValidationError α) :
    Unrefusing (raising (validated x) : EnrollmentProgram prim α) := by
  intro attempts
  cases x with
  | ok a => exact ⟨rfl, unrefused_ok a⟩
  | error e =>
    refine ⟨rfl, fun status command h => ?_⟩
    cases h

theorem unrefusing_keyPairFactory : Unrefusing (keyPairFactory : EnrollmentProgram prim KeyPair) := by
  intro attempts
  refine ⟨trivial, fun r after hr => ?_⟩
  cases r with
  | ok pair => exact ⟨hr, unrefused_ok pair⟩
  | error x => exact absurd hr id

theorem unrefusing_save (step : EnrollmentStep) (e : Enrollment prim) : Unrefusing (save step e) := by
  intro attempts
  refine ensures_save trivial (fun after hin => ⟨hin, unrefused_ok ()⟩) ?_ ?_
  · intro x after hin _
    refine ⟨hin, fun status command h => ?_⟩
    cases h
  · intro x after hin hx
    refine ⟨hin, fun status command h => ?_⟩
    cases h
    cases hx

theorem sendsOnly_tracking {ids : List CommandId} {p : EnrollmentProgram prim α} (h : p.Calls (SendsOnly ids))
    (hids : ∀ id ∈ loginCommands, id ∉ ids) (attempts : List Attempt) :
    Tracking p (fun after _ => after = attempts) attempts := by
  refine h.ensures (fun _ _ _ _ => trivial) ?_ rfl
  rintro before op r after rfl hop hr
  cases op with
  | send command =>
    obtain ⟨handed, -, rfl⟩ : ∃ handed, (isAnswer r = true → handed = true) ∧
      after = attemptsAfter before handed command r := hr
    have hmem : command.commandId ∈ ids := hop
    have hbegin : command.commandId ≠ .userAuthBegin := fun he => hids .userAuthBegin (by decide) (he ▸ hmem)
    have hfinalize : command.commandId ≠ .userAuthFinalize :=
      fun he => hids .userAuthFinalize (by decide) (he ▸ hmem)
    unfold attemptsAfter
    split
    · rename_i he
      exact absurd he hbegin
    · rename_i he
      exact absurd he hfinalize
    · rfl
  | linkKeys => exact absurd hop (hids _ (by decide))
  | save e => exact absurd hop id
  | keyPairFactory =>
    cases r with
    | ok pair => exact hr
    | error x => exact absurd hr id
  | newDeviceId => exact hr
  | now => exact hr

theorem unrefusing_caught {ids : List CommandId} {p : EnrollmentProgram prim α} (h : p.Calls (SendsOnly ids))
    (hids : ∀ id ∈ loginCommands, id ∉ ids) (step : EnrollmentStep) (e : Option (Enrollment prim)) :
    Unrefusing (catchBle p (fun b => .fail (.stopped step e b))) := by
  intro attempts
  refine ensures_catchBle (sendsOnly_tracking h hids attempts) (fun after a hin => ⟨hin, unrefused_ok a⟩) ?_ ?_
  · intro after b hin
    refine ⟨hin, fun status command h => ?_⟩
    cases h
  · intro after x hin hx
    refine ⟨hin, fun status command h => ?_⟩
    cases h
    exact hx _ rfl

theorem unrefusing_runSteps (now : Option DateTime) (steps : List EnrollmentStep) (e : Enrollment prim) :
    Unrefusing (runSteps now steps e) := by
  induction steps generalizing e with
  | nil => exact unrefusing_pure e
  | cons step rest ih =>
    refine unrefusing_bind (unrefusing_caught (calls_runStep e now step) (by decide) step (some e)) (fun next => ?_)
    exact unrefusing_bind (unrefusing_save step next) (fun _ => ih next)

theorem unrefusing_prepare (arguments : EnrollArguments) :
    Unrefusing (prepare arguments : EnrollmentProgram prim (Bytes × Bytes)) := by
  have hdevice : Unrefusing (arguments.deviceId.elim newDeviceId pure : EnrollmentProgram prim Bytes) := by
    cases arguments.deviceId with
    | none => exact fun attempts => ⟨trivial, fun r after hr => ⟨hr, unrefused_ok _⟩⟩
    | some deviceId => exact unrefusing_pure deviceId
  have hserver : Unrefusing (arguments.serverPrivateKey.elim (KeyPair.privateKey <$> keyPairFactory) pure :
      EnrollmentProgram prim Bytes) := by
    cases arguments.serverPrivateKey with
    | none => exact unrefusing_bind unrefusing_keyPairFactory (fun pair => unrefusing_pure pair.privateKey)
    | some key => exact unrefusing_pure key
  refine unrefusing_bind (unrefusing_validated _) (fun _ => unrefusing_bind hdevice (fun deviceId => ?_))
  refine unrefusing_bind (unrefusing_validated _) (fun _ => unrefusing_bind hserver (fun key => ?_))
  exact unrefusing_bind (unrefusing_validated _) (fun _ => unrefusing_pure _)

/-! The logins of a whole run. -/

/-- How many logins an error stands for, with the one it was raised under. -/
def refusals : Option Exn → Nat
  | some (.ble (.operation _ _)) => 2
  | _ => 1

/-- A refusal that leaves the library is that of every login, and otherwise the
last login was not refused. -/
def Accounted (attempts : List Attempt) : Except (Raised prim) α → Prop
  | .error ⟨.plain (.ble (.operation _ _)), context⟩ =>
    attempts.length = refusals context ∧ ∀ a ∈ attempts, a.Refused ∧ a.handed = true
  | _ => ∀ a ∈ attempts.getLast?, ¬ a.Refused

theorem accounted_of_unrefused {attempts : List Attempt} {context : Option Exn}
    {out : Except (EnrollmentExn prim) α} (hlast : ∀ a ∈ attempts.getLast?, ¬ a.Refused) (hout : Unrefused out) :
    Accounted attempts (out.mapError (fun x => (⟨x, context⟩ : Raised prim))) := by
  unfold Accounted
  split
  · rename_i status command context' heq
    cases out with
    | ok a => cases heq
    | error x =>
      cases heq
      exact absurd rfl (hout status command)
  · exact hlast

/-- A last login that failed leaves its own error, under the refusals before it. -/
theorem LoggedIn.accounted {attempts after : List Attempt} {context : Option Exn} {x : EnrollmentExn prim}
    (h : LoggedIn attempts after (.error x)) (hlength : attempts.length + 1 = refusals context)
    (hbefore : ∀ a ∈ attempts, a.Refused ∧ a.handed = true) :
    Accounted after (.error ⟨x, context⟩ : Except (Raised prim) α) := by
  obtain ⟨handed, result, rfl, hout, hhanded⟩ := h
  cases result with
  | ok u => cases hout
  | error y =>
    obtain rfl : x = .plain y := Except.error.inj hout
    have hother : (∀ status command, y ≠ .ble (.operation status command)) →
        ∀ a ∈ (attempts ++ [(⟨handed, some (.error y)⟩ : Attempt)]).getLast?, ¬ a.Refused := by
      rintro hy a ha ⟨status, command, ho⟩
      rw [List.getLast?_concat] at ha
      obtain rfl := Option.some.inj ha
      exact hy status command (Except.error.inj (Option.some.inj ho))
    unfold Accounted
    split
    · rename_i status command context' heq
      cases heq
      have htrue : handed = true := by
        rcases hhanded with h | ⟨z, hz, hne⟩
        · exact h
        · cases hz
          exact absurd rfl (hne status command)
      refine ⟨by rw [List.length_append]; exact hlength, fun a ha => ?_⟩
      rcases List.mem_append.mp ha with hold | hnew
      · exact hbefore a hold
      · rw [List.mem_singleton.mp hnew]
        exact ⟨⟨status, command, rfl⟩, htrue⟩
    · rename_i hne
      refine hother (fun status command hy => ?_)
      subst hy
      exact hne status command context rfl

theorem LoggedIn.succeeded {attempts after : List Attempt}
    (h : LoggedIn attempts after (.ok () : Except (EnrollmentExn prim) Unit)) : ∀ a ∈ after.getLast?, ¬ a.Refused := by
  obtain ⟨handed, result, rfl, hout, -⟩ := h
  rintro a ha ⟨status, command, ho⟩
  rw [List.getLast?_concat] at ha
  obtain rfl := Option.some.inj ha
  obtain rfl : result = .error (.ble (.operation status command)) := Option.some.inj ho
  cases hout

theorem Unrefusing.accounted {p : EnrollmentProgram prim α} {attempts : List Attempt} (h : Unrefusing p)
    (hlast : ∀ a ∈ attempts.getLast?, ¬ a.Refused) :
    Tracking p (fun after out => Accounted after (out.mapError (fun x => (⟨x, none⟩ : Raised prim)))) attempts := by
  refine (h attempts).mono ?_
  rintro after out ⟨rfl, hout⟩
  exact accounted_of_unrefused hlast hout

theorem enroll_accounted (arguments : EnrollArguments) :
    Tracking (enroll arguments : EnrollmentProgram prim (Enrollment prim))
      (fun after out => Accounted after (out.mapError (fun x => (⟨x, none⟩ : Raised prim)))) [] := by
  refine (unrefusing_prepare arguments []).bind ?_ ?_
  · rintro after prepared ⟨rfl, -⟩
    refine (authenticateOwner_tracking defaultOwnerCredential []).bind ?_ ?_
    · intro after _ hlogin
      refine Unrefusing.accounted ?_ hlogin.succeeded
      refine unrefusing_bind unrefusing_keyPairFactory (fun pair => ?_)
      refine unrefusing_bind (unrefusing_caught (calls_updateOwnerKey pair) (by decide) .ownerKey none) (fun keys => ?_)
      refine unrefusing_bind (unrefusing_validated _) (fun e => unrefusing_bind (unrefusing_save _ e) (fun _ => ?_))
      exact unrefusing_runSteps arguments.now e.remaining e
    · intro after x hlogin
      exact hlogin.accounted rfl (by simp)
  · rintro after x ⟨rfl, hx⟩
    exact accounted_of_unrefused (by simp) hx.error

theorem isSecurityError_operation {b : BleError} (h : b.isSecurityError = true) :
    ∃ status command, b = .operation status command := by
  cases b with
  | operation status command => exact ⟨status, command, rfl⟩
  | _ => cases h

/-- The second login, in the handler of the first one's refusal. -/
theorem second_accounted (e : Enrollment prim) {first : List Attempt} {b : BleError}
    (hfirst : LoggedIn [] first (.error (.plain (.ble b)) : Except (EnrollmentExn prim) Unit))
    (hb : b.isSecurityError = true) :
    (raisedIn (some (.ble b)) (do
      authenticateOwner e.enrolledCredential
      let loggedIn ← OnestiLock.confirm e .deviceId e.lockServerPublicKey
      pure (some loggedIn))).Ensures loggingIn (fun _ _ => True) (fun after out =>
        match out with
        | .ok _ => ∀ a ∈ after.getLast?, ¬ a.Refused
        | .error raised => Accounted after (.error raised : Except (Raised prim) (Enrollment prim))) first := by
  obtain ⟨status, command, rfl⟩ := isSecurityError_operation hb
  have hbefore : first.length = 1 ∧ ∀ a ∈ first, a.Refused ∧ a.handed = true :=
    (show Accounted first (.error ⟨_, none⟩ : Except (Raised prim) Unit) from hfirst.accounted rfl (by simp))
  have hconfirm : Unrefusing (OnestiLock.confirm e .deviceId e.lockServerPublicKey >>= fun loggedIn => pure (some loggedIn)) :=
    unrefusing_bind (unrefusing_validated _) (fun _ => unrefusing_pure _)
  have hsecond : Tracking (authenticateOwner e.enrolledCredential >>= fun _ =>
      OnestiLock.confirm e .deviceId e.lockServerPublicKey >>= fun loggedIn => pure (some loggedIn)) (fun after out =>
        (∀ a ∈ after.getLast?, ¬ a.Refused) ∧ Unrefused out ∨
          ∃ x, out = .error x ∧ LoggedIn first after (.error x : Except (EnrollmentExn prim) Unit)) first := by
    refine (authenticateOwner_tracking e.enrolledCredential first).bind ?_ ?_
    · intro after _ hlogin
      refine (hconfirm after).mono ?_
      rintro last out ⟨rfl, hout⟩
      exact Or.inl ⟨hlogin.succeeded, hout⟩
    · exact fun after x hlogin => Or.inr ⟨x, rfl, hlogin⟩
  refine hsecond.both (fun after out hin => ?_)
  cases out with
  | ok loggedIn =>
    rcases hin with ⟨hlast, -⟩ | ⟨x, hx, -⟩
    · exact hlast
    · cases hx
  | error x =>
    rcases hin with ⟨hlast, hout⟩ | ⟨_, ⟨⟩, hlogin⟩
    · exact accounted_of_unrefused hlast hout.error
    · exact hlogin.accounted (by rw [hbefore.1]; rfl) hbefore.2

theorem logInRaising_accounted (e : Enrollment prim) :
    (logInRaising e).Ensures loggingIn (fun _ _ => True) (fun after out =>
      match out with
      | .ok _ => ∀ a ∈ after.getLast?, ¬ a.Refused
      | .error raised => Accounted after (.error raised : Except (Raised prim) (Enrollment prim))) [] := by
  refine (authenticateOwner_tracking e.ownerCredential []).both (fun after out hlogin => ?_)
  have hfailed : ∀ x, out = .error x → Accounted after (.error ⟨x, none⟩ : Except (Raised prim) (Enrollment prim)) := by
    rintro x rfl
    exact hlogin.accounted rfl (by simp)
  cases out with
  | ok u => exact hlogin.succeeded
  | error x =>
    cases x with
    | plain y =>
      cases y with
      | ble b =>
        dsimp only
        split_ifs with hsecurity hdevice
        · exact hfailed _ rfl
        · exact hfailed _ rfl
        · exact second_accounted e hlogin (by simpa using hsecurity)
      | cancelled => exact hfailed _ rfl
      | other name => exact hfailed _ rfl
    | stopped step enrollment cause => exact hfailed _ rfl
    | notSaved step enrollment cause => exact hfailed _ rfl

theorem resumeRaising_accounted (e : Enrollment prim) (now : Option DateTime) :
    (resumeRaising e now).Ensures loggingIn (fun _ _ => True) Accounted [] := by
  have hdone : Accounted [] ((.ok e : Except (EnrollmentExn prim) _).mapError (fun x => (⟨x, none⟩ : Raised prim))) :=
    accounted_of_unrefused (by simp) (unrefused_ok e)
  rw [resumeRaising]
  split_ifs
  · exact hdone
  · refine (logInRaising_accounted e).bind ?_ (fun after raised hin => hin)
    intro after loggedIn hlast
    have hraised : ∀ p : EnrollmentProgram prim (Enrollment prim), Unrefusing p →
        (raisedIn none p).Ensures loggingIn (fun _ _ => True) Accounted after := by
      intro p hp
      refine (hp.accounted hlast).both (fun last out hend => ?_)
      cases out with
      | ok done => exact hend
      | error x => exact hend
    refine hraised _ ?_
    cases loggedIn with
    | none => exact unrefusing_runSteps now e.remaining e
    | some loggedIn =>
      exact unrefusing_bind (unrefusing_save _ _) (fun _ => unrefusing_runSteps now loggedIn.remaining loggedIn)

end OnestiLock.Cli
