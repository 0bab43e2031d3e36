import OnestiLock.EnrollmentRules

/-! No confirmed step is lost to validation: the constructor accepts the enrollment that
is due after the lock's answer, and the next call saves it. -/

namespace OnestiLock

open Program

variable {prim : Primitives}

namespace EnrollmentFields

variable {e fields : EnrollmentFields} {step : EnrollmentStep} {response : Response}

/-- What `_run_step` replaces, once the answer reads. -/
def answered (e : EnrollmentFields) (step : EnrollmentStep) (response : Response) : Option EnrollmentFields :=
  match step with
  | .serverKey =>
    match parseServerKeyUpdate response with
    | .ok lockKey =>
      some { e with lockServerPublicKey := some lockKey, completed := insert .serverKey e.completed }
    | .error _ => none
  | step => some { e with completed := insert step e.completed }

theorem Valid.answered (h : e.Valid prim) (hf : e.answered step response = some fields) : fields.Valid prim := by
  cases step with
  | serverKey =>
    unfold EnrollmentFields.answered at hf
    simp only at hf
    split at hf
    · rename_i lockKey hparse
      obtain rfl := Option.some.inj hf
      exact h.confirmServerKey (parseBytes_length hparse)
    · cases hf
  | ownerKey => exact Option.some.inj hf ▸ h.confirm (by simp)
  | deviceId => exact Option.some.inj hf ▸ h.confirm (by simp)
  | clock => exact Option.some.inj hf ▸ h.confirm (by simp)
  | name => exact Option.some.inj hf ▸ h.confirm (by simp)

theorem answered_of_confirmed {e next : Enrollment prim} (h : Confirmed e step response next) :
    e.answered step response = some next.toEnrollmentFields := by
  cases step with
  | serverKey =>
    obtain ⟨lockKey, hparse, hfields⟩ := h
    simp only [answered, hparse, hfields]
  | ownerKey => exact congrArg some (Eq.symm h)
  | deviceId => exact congrArg some (Eq.symm h)
  | clock => exact congrArg some (Eq.symm h)
  | name => exact congrArg some (Eq.symm h)

end EnrollmentFields

/-- What a run holds: the arguments it goes by, the last key pair made, the device id the
last UserAuthBegin named, the enrollment, and the one due since the lock's last answer. -/
structure Holding (prim : Primitives) where
  name : String
  deviceId : Option Bytes
  serverPrivateKey : Option Bytes
  keyPair : Option KeyPair
  named : Bytes
  enrollment : Option (Enrollment prim)
  due : Option EnrollmentFields

namespace Holding

def enrolling (arguments : EnrollArguments) : Holding prim :=
  ⟨arguments.name, arguments.deviceId, arguments.serverPrivateKey, none, [], none, none⟩

def resuming (e : Enrollment prim) : Holding prim :=
  ⟨e.name, some e.deviceId, some e.serverPrivateKey, none, [], some e, none⟩

/-- The first enrollment, of the answer to UserAuthUpdate. -/
def first (held : Holding prim) (response : Response) : Option EnrollmentFields := do
  let lockKey ← (parseUserAuthUpdate response).toOption
  let pair ← held.keyPair
  let ownerKey ← (deriveOwnerKey prim pair.privateKey lockKey).toOption
  let deviceId ← held.deviceId
  let serverPrivateKey ← held.serverPrivateKey
  return EnrollmentFields.first held.name deviceId serverPrivateKey pair.privateKey lockKey ownerKey

/-- The enrollment that an answered command makes due. -/
def dueAfter (held : Holding prim) (command : CommandPayload) (response : Response) : Option EnrollmentFields :=
  match held.enrollment with
  | none => if command.commandId = .userAuthUpdate then held.first response else none
  | some e =>
    match command.commandId with
    | .userAuthFinalize =>
      if held.named ≠ defaultDeviceId ∧ .deviceId ∉ e.completed then e.answered .deviceId response else none
    | .deviceIdSet => e.answered .deviceId response
    | .currentTimeSet => e.answered .clock response
    | .serverKeyUpdate => e.answered .serverKey response
    | .deviceNameSet => e.answered .name response
    | _ => none

def naming (held : Holding prim) (command : CommandPayload) : Holding prim :=
  if command.commandId = .userAuthBegin then { held with named := command.data.drop 1 } else held

def next (held : Holding prim) : (op : EnrollmentOp prim) → EnrollmentReply prim op → Holding prim
  | .send command, .ok response =>
    { held.naming command with due := (held.naming command).dueAfter command response }
  | .send command, .error _ => held.naming command
  | .newDeviceId, fresh => { held with deviceId := some fresh.val }
  | .keyPairFactory, .ok pair =>
    { held with
      keyPair := some pair
      serverPrivateKey := held.serverPrivateKey.or (some pair.privateKey) }
  | .save e, _ => { held with enrollment := some e, due := none }
  | _, _ => held

/-- The surroundings answer anything. -/
def observing : Surroundings (EnrollmentOp prim) (EnrollmentReply prim) (Holding prim) :=
  fun held op reply after => after = held.next op reply

/-- An enrollment that is due is valid, and the call saves it. -/
def Allows (held : Holding prim) (op : EnrollmentOp prim) : Prop :=
  ∀ fields ∈ held.due, ∃ e : Enrollment prim, op = .save e ∧ e.toEnrollmentFields = fields

def Leaves (held : Holding prim) (_ : Except (EnrollmentExn prim) (Enrollment prim)) : Prop := held.due = none

structure Settled (held : Holding prim) (e : Enrollment prim) : Prop where
  enrollment : held.enrollment = some e
  due : held.due = none

/-- Only what was named and what is due may have changed. -/
structure Same (held after : Holding prim) : Prop where
  name : after.name = held.name
  deviceId : after.deviceId = held.deviceId
  serverPrivateKey : after.serverPrivateKey = held.serverPrivateKey
  enrollment : after.enrollment = held.enrollment

variable {held after : Holding prim} {e : Enrollment prim} {guard : Holding prim → EnrollmentOp prim → Prop}

theorem Same.refl (held : Holding prim) : held.Same held := ⟨rfl, rfl, rfl, rfl⟩

theorem Same.trans {last : Holding prim} (h : held.Same after) (h' : after.Same last) : held.Same last :=
  ⟨h'.name.trans h.name, h'.deviceId.trans h.deviceId, h'.serverPrivateKey.trans h.serverPrivateKey,
    h'.enrollment.trans h.enrollment⟩

theorem naming_same (held : Holding prim) (command : CommandPayload) : held.Same (held.naming command) := by
  unfold naming
  split <;> exact ⟨rfl, rfl, rfl, rfl⟩

theorem naming_due (held : Holding prim) (command : CommandPayload) : (held.naming command).due = held.due := by
  unfold naming
  split <;> rfl

theorem naming_of_ne {command : CommandPayload} (h : command.commandId ≠ .userAuthBegin) :
    held.naming command = held :=
  if_neg h

theorem send_same (held : Holding prim) (command : CommandPayload) (reply : Except Exn Response) :
    held.Same (held.next (.send command) reply) := by
  have hnaming := held.naming_same command
  cases reply with
  | ok response => exact ⟨hnaming.name, hnaming.deviceId, hnaming.serverPrivateKey, hnaming.enrollment⟩
  | error x => exact hnaming

theorem allows_of_none (h : held.due = none) (op : EnrollmentOp prim) : held.Allows op := by
  intro fields hfields
  rw [h] at hfields
  cases hfields

theorem Settled.of_same (h : held.Settled e) (hs : held.Same after) (hd : after.due = none) : after.Settled e :=
  ⟨hs.enrollment.trans h.enrollment, hd⟩

/-! The steps. -/

theorem dueAfter_step (h : held.Settled e) {step : EnrollmentStep} (hstep : step ≠ .ownerKey)
    {command : CommandPayload} (hc : StepCommand e step command) (response : Response) :
    (held.next (.send command) (.ok response)).due = e.answered step response := by
  have hid := hc.commandId
  have hheld : (held.naming command).enrollment = some e :=
    ((held.naming_same command).enrollment).trans h.enrollment
  show (held.naming command).dueAfter command response = _
  unfold dueAfter
  rw [hheld, hid]
  cases step with
  | ownerKey => exact absurd rfl hstep
  | deviceId => rfl
  | clock => rfl
  | serverKey => rfl
  | name => rfl

theorem runStep_ensures {now : Option DateTime} {step : EnrollmentStep} (hstep : step ≠ .ownerKey)
    (h : held.Settled e) :
    (runStep e now step).Ensures observing Allows (fun held out =>
      match out with
      | .ok next => held.due = some next.toEnrollmentFields
      | .error _ => held.due = none) held := by
  have hallows := allows_of_none h.due
  refine ensures_runStep hstep (fun _ _ _ hs => hs) (hallows _) ?_ (fun command _ => hallows _) ?_ ?_ ?_
  · intro moment x _ _ _ _
    exact h.due
  · rintro command response _ next hc rfl hn
    rw [dueAfter_step h hstep hc]
    exact EnrollmentFields.answered_of_confirmed hn
  · rintro command response _ b hc rfl rfl hp
    show _ = none
    rw [dueAfter_step h hstep hc]
    simp only [EnrollmentFields.answered, hp]
  · rintro command x _ hc rfl
    exact (held.naming_due command).trans h.due

theorem save_ensures {step : EnrollmentStep} (h : held.due = some e.toEnrollmentFields) :
    (save step e).Ensures observing Allows (fun held out =>
      match out with
      | .ok () => held.Settled e
      | .error _ => held.due = none) held := by
  refine ensures_save ?_ ?_ ?_ ?_
  · intro fields hfields
    rw [h, Option.mem_some_iff] at hfields
    exact ⟨e, rfl, hfields⟩
  · rintro _ rfl
    exact ⟨rfl, rfl⟩
  · rintro x _ rfl _
    rfl
  · rintro x _ rfl _
    rfl

theorem runRemaining_ensures {now : Option DateTime} (h : held.Settled e) :
    (runRemaining e now).Ensures observing Allows Leaves held := by
  refine ensures_runRemaining (J := fun e held => held.Settled e)
    (K := fun _ e held => held.due = some e.toEnrollmentFields) ?_ ?_ (fun _ _ hj => hj.due) h
  · intro step e held hne hj
    exact runStep_ensures hne hj
  · intro step e held hk
    exact save_ensures hk

theorem save_runRemaining_ensures {now : Option DateTime} {step : EnrollmentStep}
    (h : held.due = some e.toEnrollmentFields) :
    (save step e >>= fun _ => runRemaining e now).Ensures observing Allows Leaves held :=
  (save_ensures h).bind (fun _ _ hs => runRemaining_ensures hs) (fun _ _ hx => hx)

/-! The logins. -/

/-- What a login with the device id makes due: a new one proves the device id step. -/
def proved (held : Holding prim) (deviceId : Bytes) : Option EnrollmentFields :=
  match held.enrollment with
  | none => none
  | some e =>
    if deviceId ≠ defaultDeviceId ∧ .deviceId ∉ e.completed then
      some { e.toEnrollmentFields with completed := insert .deviceId e.completed }
    else none

theorem dueAfter_finalize {command : CommandPayload} (hid : command.commandId = .userAuthFinalize)
    (response : Response) : held.dueAfter command response = held.proved held.named := by
  unfold dueAfter proved
  rw [hid]
  cases held.enrollment with
  | none => exact if_neg (by simp)
  | some e => rfl

theorem dueAfter_begin {command : CommandPayload} (hid : command.commandId = .userAuthBegin)
    (response : Response) : held.dueAfter command response = none := by
  unfold dueAfter
  rw [hid]
  cases held.enrollment with
  | none => exact if_neg (by simp)
  | some e => rfl

theorem login_ensures {credential : OwnerCredential} (hd : held.due = none) :
    (authenticateOwner credential : EnrollmentProgram prim Unit).Ensures observing Allows (fun after out =>
      held.Same after ∧
        match out with
        | .ok () => after.due = held.proved credential.deviceId
        | .error x => after.due = none ∧ ∃ y, x = .plain y) held := by
  refine ensures_authenticateOwner
    (B := fun begun => held.Same begun ∧ begun.due = none ∧ begun.named = credential.deviceId)
    (fun _ => allows_of_none hd _) ?_ ?_ ?_ (fun _ hb => allows_of_none hb.2.1 _) ?_
    (fun _ _ hb _ => allows_of_none hb.2.1 _) ?_ ?_
  · rintro user r _ rfl
    exact ⟨send_same held _ (.ok r), dueAfter_begin rfl r, rfl⟩
  · rintro user x _ rfl
    exact ⟨send_same held _ (.error x), (naming_due _ _).trans hd, x, rfl⟩
  · rintro begun x ⟨hsame, hnone, -⟩
    exact ⟨hsame, hnone, x, rfl⟩
  · rintro begun keys _ hb rfl
    exact hb
  · rintro begun c r _ ⟨hsame, -, hnamed⟩ hid rfl
    refine ⟨hsame.trans (send_same begun c (.ok r)), ?_⟩
    show (begun.naming c).dueAfter c r = held.proved credential.deviceId
    rw [naming_of_ne (by simp [hid]), dueAfter_finalize hid, hnamed, proved, proved, hsame.enrollment]
  · rintro begun c x _ ⟨hsame, hnone, -⟩ hid rfl
    exact ⟨hsame.trans (send_same begun c (.error x)), (naming_due begun c).trans hnone, x, rfl⟩

theorem proved_ownerCredential (h : held.enrollment = some e) : held.proved e.ownerCredential.deviceId = none := by
  unfold proved
  rw [h]
  by_cases hmem : .deviceId ∈ e.completed
  · exact if_neg (fun hn => hn.2 hmem)
  · exact if_neg (fun hn => hn.1 (by simp [Enrollment.ownerCredential, hmem]))

theorem logInToResume_ensures (h : held.Settled e) :
    (logInToResume e).Ensures observing Allows (fun after out =>
      match out with
      | .ok none => after.Settled e
      | .ok (some loggedIn) => after.due = some loggedIn.toEnrollmentFields
      | .error x => after.due = none ∧ ∃ y, x = .plain y) held := by
  refine ensures_logInToResume (J := fun after => after.Settled e) ?_ ?_
  · refine (login_ensures h.due).mono ?_
    rintro after (x | u) ⟨hsame, hdue⟩
    · exact ⟨h.of_same hsame hdue.1, hdue⟩
    · exact h.of_same hsame (hdue.trans (proved_ownerCredential h.enrollment))
  · intro after hmem hj
    refine (login_ensures hj.due).mono ?_
    rintro last (x | u) ⟨-, hdue⟩
    · exact hdue
    · intro next hnext
      have hnew : e.enrolledCredential.deviceId ≠ defaultDeviceId ∧ .deviceId ∉ e.completed :=
        ⟨e.valid.deviceId.2, hmem⟩
      show last.due = some next.toEnrollmentFields
      rw [hdue, hnext, proved, hj.enrollment]
      exact if_pos hnew

theorem resumeEnrollment_ensures (e : Enrollment prim) (now : Option DateTime) :
    (resumeEnrollment e now).Ensures observing Allows Leaves (resuming e) := by
  have h : (resuming e).Settled e := ⟨rfl, rfl⟩
  by_cases hc : e.complete = true
  · rw [resumeEnrollment, if_pos hc]
    exact rfl
  · rw [resumeEnrollment, if_neg hc]
    refine (logInToResume_ensures h).bind ?_ ?_
    · rintro after (_ | loggedIn) hin
      · exact runRemaining_ensures hin
      · exact save_runRemaining_ensures hin
    · rintro after x ⟨hdue, -⟩
      exact hdue

/-! The start of `enroll`, before there is an enrollment. -/

structure Starting (arguments : EnrollArguments) (held : Holding prim) : Prop where
  name : held.name = arguments.name
  enrollment : held.enrollment = none
  due : held.due = none

structure Filled (arguments : EnrollArguments) (deviceId serverPrivateKey : Bytes) (held : Holding prim) : Prop
    extends Starting arguments held where
  deviceId : held.deviceId = some deviceId
  serverPrivateKey : held.serverPrivateKey = some serverPrivateKey

section

variable {arguments : EnrollArguments} {deviceId serverPrivateKey : Bytes} {pair : KeyPair}

theorem proved_none (h : held.enrollment = none) (deviceId : Bytes) : held.proved deviceId = none := by
  rw [proved, h]

theorem Filled.of_same (h : Filled arguments deviceId serverPrivateKey held) (hs : held.Same after)
    (hd : after.due = none) : Filled arguments deviceId serverPrivateKey after where
  name := hs.name.trans h.name
  enrollment := hs.enrollment.trans h.enrollment
  due := hd
  deviceId := hs.deviceId.trans h.deviceId
  serverPrivateKey := hs.serverPrivateKey.trans h.serverPrivateKey

/-- A later key pair does not replace the server key. -/
theorem Filled.keyPair (h : Filled arguments deviceId serverPrivateKey held) (pair : KeyPair) :
    Filled arguments deviceId serverPrivateKey (held.next .keyPairFactory (.ok pair)) where
  name := h.name
  enrollment := h.enrollment
  due := h.due
  deviceId := h.deviceId
  serverPrivateKey := by
    show held.serverPrivateKey.or (some pair.privateKey) = _
    rw [h.serverPrivateKey]
    rfl

theorem prepare_ensures (arguments : EnrollArguments) :
    (prepare arguments : EnrollmentProgram prim (Bytes × Bytes)).Ensures observing Allows (fun held out =>
      Starting arguments held ∧
        match out with
        | .ok p => Filled arguments p.1 p.2 held ∧ Prepared prim arguments p.1 p.2
        | .error x => ∃ y, x = .plain y) (enrolling arguments) := by
  refine ensures_prepared (P := Starting arguments)
    (D := fun d held => Starting arguments held ∧ held.deviceId = some d ∧
      held.serverPrivateKey = arguments.serverPrivateKey)
    (K := fun d k held => Filled arguments d k held) ⟨rfl, rfl, rfl⟩ (fun _ _ h => h.1)
    (fun _ _ _ h => h.toStarting) ?_ ?_ ?_ ?_ ?_ (allows_of_none rfl _) (fun _ h => allows_of_none h.due _)
  · intro given hgiven
    exact ⟨⟨rfl, rfl, rfl⟩, hgiven, rfl⟩
  · rintro - fresh _ rfl
    exact ⟨⟨rfl, rfl, rfl⟩, rfl, rfl⟩
  · rintro given hgiven d held ⟨hs, hdevice, hserver⟩
    exact { hs with deviceId := hdevice, serverPrivateKey := hserver.trans hgiven }
  · rintro hnone d held pair _ ⟨hs, hdevice, hserver⟩ rfl
    refine { name := hs.name, enrollment := hs.enrollment, due := hs.due, deviceId := hdevice, serverPrivateKey := ?_ }
    show held.serverPrivateKey.or (some pair.privateKey) = _
    rw [hserver, hnone]
    rfl
  · rintro held x _ hs rfl
    exact hs

theorem updateOwnerKey_ensures (h : Filled arguments deviceId serverPrivateKey held)
    (hpair : held.keyPair = some pair) :
    (updateOwnerKey pair : EnrollmentProgram prim (Bytes × Bytes)).Ensures observing Allows (fun after out =>
      match out with
      | .ok p => p.1.length = publicKeyLength ∧ deriveOwnerKey prim pair.privateKey p.1 = .ok p.2 ∧
          after.due = some (EnrollmentFields.first arguments.name deviceId serverPrivateKey
            pair.privateKey p.1 p.2)
      | .error x => after.due = none ∧ ∃ y, x = .plain y) held := by
  have hanswered : ∀ c r, userAuthUpdate defaultAdminUserId ownerCredentials pair.publicKey = .ok c →
      (held.next (.send c) (.ok r)).due = held.first r := by
    intro c r hc
    show (held.naming c).dueAfter c r = _
    have hid := userAuthUpdate_commandId hc
    rw [naming_of_ne (by simp [hid]), dueAfter, h.enrollment]
    exact if_pos hid
  refine Ensures.seq (ensures_request (fun x _ => ⟨h.due, _, rfl⟩) (fun c _ => allows_of_none h.due _) ?_ ?_ ?_)
  · rintro c r _ lockKey hc rfl hparse
    refine Ensures.seq (ensures_raising ?_ ?_)
    · intro ownerKey howner
      refine ⟨parseBytes_length hparse, howner, (hanswered c r hc).trans ?_⟩
      simp [first, hparse, hpair, howner, h.name, h.deviceId, h.serverPrivateKey, Except.toOption]
    · intro x hx
      refine ⟨(hanswered c r hc).trans ?_, x, rfl⟩
      simp [first, hparse, hpair, hx, Except.toOption]
  · rintro c r _ b hc rfl hparse
    refine ⟨(hanswered c r hc).trans ?_, _, rfl⟩
    simp [first, hparse, Except.toOption]
  · rintro c x _ hc rfl
    exact ⟨(held.naming_due c).trans h.due, x, rfl⟩

theorem caughtOwnerKey_ensures (h : Filled arguments deviceId serverPrivateKey held)
    (hpair : held.keyPair = some pair) :
    (catchBle (updateOwnerKey pair) (fun b => .fail (.stopped .ownerKey none b)) :
      EnrollmentProgram prim (Bytes × Bytes)).Ensures observing Allows (fun after out =>
        match out with
        | .ok p => p.1.length = publicKeyLength ∧ deriveOwnerKey prim pair.privateKey p.1 = .ok p.2 ∧
            after.due = some (EnrollmentFields.first arguments.name deviceId serverPrivateKey
              pair.privateKey p.1 p.2)
        | .error _ => after.due = none) held := by
  refine ensures_catchBle (updateOwnerKey_ensures h hpair) (fun s a h => h) ?_ ?_
  · rintro s b ⟨hd, -⟩
    exact hd
  · rintro s x ⟨hd, -⟩ -
    exact hd

theorem enroll_ensures (arguments : EnrollArguments) :
    (enroll arguments : EnrollmentProgram prim (Enrollment prim)).Ensures observing Allows Leaves
      (enrolling arguments) := by
  refine (prepare_ensures arguments).bind ?_ ?_
  · rintro held ⟨deviceId, serverPrivateKey⟩ ⟨-, hfilled, hprepared⟩
    refine (login_ensures hfilled.due).bind ?_ ?_
    · rintro loggedIn _ ⟨hsame, hdue⟩
      have hin := hfilled.of_same hsame (hdue.trans (proved_none hfilled.enrollment _))
      refine Ensures.seq (ensures_keyPairFactory (allows_of_none hin.due _) ?_ ?_)
      · rintro pair _ rfl
        refine (caughtOwnerKey_ensures (hin.keyPair pair) rfl).bind ?_ (fun _ _ h => h)
        rintro confirmed ⟨lockKey, ownerKey⟩ ⟨hlen, howner, hdue⟩
        have hv := hprepared.valid hlen howner
        refine Ensures.seq (ensures_ofFields hv (fun e he => ?_))
        exact save_runRemaining_ensures (hdue.trans (congrArg some he.symm))
      · rintro x _ rfl
        exact hin.due
    · rintro after x ⟨-, hdue, -⟩
      exact hdue
  · rintro held x ⟨hs, -⟩
    exact hs.due

end

/-- The two entry points, with what they hold before. -/
inductive Started : EnrollmentProgram prim (Enrollment prim) → Holding prim → Prop
  | enroll (arguments : EnrollArguments) : Started (enroll arguments) (enrolling arguments)
  | resume (e : Enrollment prim) (now : Option DateTime) :
      Started (resumeEnrollment e now) (resuming e)

theorem Started.ensures {p : EnrollmentProgram prim (Enrollment prim)} (h : Started p held) :
    p.Ensures observing Allows Leaves held := by
  cases h with
  | enroll arguments => exact enroll_ensures arguments
  | resume e now => exact resumeEnrollment_ensures e now

end Holding

/-- The constructor accepts what an accepted answer makes of the enrollment: the first one,
the next one of a step and, for the device id step, that of a resumed login. In a run the
call after the answer saves it. -/
theorem confirmed_step_kept (prim : Primitives) :
    (∀ arguments deviceId serverPrivateKey, Prepared prim arguments deviceId serverPrivateKey →
      ∀ (pair : KeyPair) response lockKey ownerKey, parseUserAuthUpdate response = .ok lockKey →
        deriveOwnerKey prim pair.privateKey lockKey = .ok ownerKey →
        (EnrollmentFields.first arguments.name deviceId serverPrivateKey
          pair.privateKey lockKey ownerKey).postInit prim = .ok ()) ∧
    (∀ (e : Enrollment prim) step response fields,
      e.answered step response = some fields → fields.postInit prim = .ok ()) ∧
    ∀ p held after q, Holding.Started p held → Steps Holding.observing held p after q →
      ∀ fields ∈ after.due, fields.postInit prim = .ok () ∧
        ∃ (e : Enrollment prim) (next : Except Exn Unit → EnrollmentProgram prim (Enrollment prim)),
          q = .call (.save e) next ∧ e.toEnrollmentFields = fields := by
  refine ⟨?_, ?_, ?_⟩
  · intro arguments deviceId serverPrivateKey hprepared pair response lockKey ownerKey hparse howner
    have hv := hprepared.valid (parseBytes_length hparse) howner
    exact (EnrollmentFields.postInit_ok prim).mpr hv
  · intro e step response fields hfields
    exact (EnrollmentFields.postInit_ok prim).mpr (e.valid.answered hfields)
  · intro p held after q hp hs fields hfields
    have h := hp.ensures.of_steps hs
    cases q with
    | done e => exact absurd (hfields.symm.trans h) (by simp)
    | fail x => exact absurd (hfields.symm.trans h) (by simp)
    | call op next =>
      obtain ⟨e, rfl, rfl⟩ := h.1 fields hfields
      exact ⟨(EnrollmentFields.postInit_ok prim).mpr e.valid, e, next, rfl, rfl⟩

/-- A resume whose second login proves the device id step. -/
theorem confirmed_step_kept_secondLogin : ∃ held p fields,
    Steps Holding.observing (Holding.resuming frontDoor) (resumeEnrollment frontDoor none) held p ∧
      held.due = some fields ∧ fields.postInit Primitives.scalarOne = .ok () := by
  have hrun : ∃ held p fields,
      Steps Holding.observing (Holding.resuming frontDoor) (resumeEnrollment frontDoor none) held p ∧
        held.due = some fields := by
    refine ⟨_, _, _, .call (r := .error (.ble (.operation statusSecurityError 0))) rfl
      (.call (r := .ok ⟨CommandId.userAuthBegin.value, 1, 0, List.replicate 16 0⟩) rfl
      (.call (r := .ok ⟨List.replicate 16 0, List.replicate 16 0, rfl, rfl⟩) rfl
      (.call (r := .ok ⟨CommandId.userAuthFinalize.value, 1, 0, []⟩) rfl (.refl _ _)))), rfl⟩
  obtain ⟨held, p, fields, hs, hd⟩ := hrun
  have hkept := (confirmed_step_kept Primitives.scalarOne).2.2 _ _ _ _ (.resume frontDoor none) hs fields hd
  exact ⟨held, p, fields, hs, hd, hkept.1⟩

end OnestiLock
