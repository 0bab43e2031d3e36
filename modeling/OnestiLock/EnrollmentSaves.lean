import OnestiLock.EnrollmentRules

/-! Enrollment is write-ahead: a step the lock confirmed is saved before
anything else is sent. -/

namespace OnestiLock

open Program

variable {prim : Primitives}

/-- What an observer of a run has seen: the last key pair made, the device id
the last UserAuthBegin named, the confirmed steps, the enrollment last saved,
and a confirmed step no save has been called with. -/
structure Seen (prim : Primitives) where
  keyPair : Option KeyPair
  named : Bytes
  confirmed : Finset EnrollmentStep
  saved : Option (Enrollment prim)
  unsaved : Option EnrollmentStep

namespace Seen

/-- Before `enroll`. -/
def fresh : Seen prim := ⟨none, [], ∅, none, none⟩

/-- Before a resume, which counts its argument as saved. -/
def resuming (enrollment : Enrollment prim) : Seen prim :=
  ⟨none, [], enrollment.completed, some enrollment, none⟩

/-- The step an answered command confirms, if its answer reads without error. -/
def confirms (seen : Seen prim) (command : CommandPayload) (response : Response) : Option EnrollmentStep :=
  match command.commandId with
  | .userAuthFinalize =>
    if seen.named ≠ defaultDeviceId ∧ .deviceId ∉ seen.confirmed then some .deviceId else none
  | .userAuthUpdate =>
    match parseUserAuthUpdate response, seen.keyPair with
    | .ok lockKey, some pair =>
      if (deriveOwnerKey prim pair.privateKey lockKey).isOk then some .ownerKey else none
    | _, _ => none
  | .deviceIdSet => some .deviceId
  | .currentTimeSet => some .clock
  | .serverKeyUpdate => if (parseServerKeyUpdate response).isOk then some .serverKey else none
  | .deviceNameSet => some .name
  | _ => none

def confirm (seen : Seen prim) (step : EnrollmentStep) : Seen prim :=
  { seen with confirmed := insert step seen.confirmed, unsaved := some step }

def name (seen : Seen prim) (command : CommandPayload) : Seen prim :=
  if command.commandId = .userAuthBegin then { seen with named := command.data.drop 1 } else seen

def next (seen : Seen prim) : (op : EnrollmentOp prim) → EnrollmentReply prim op → Seen prim
  | .send command, .ok response =>
    ((seen.name command).confirms command response).elim (seen.name command) (seen.name command).confirm
  | .send command, .error _ => seen.name command
  | .keyPairFactory, .ok pair => { seen with keyPair := some pair }
  | .save enrollment, reply =>
    { seen with
      saved := if reply.isOk then some enrollment else seen.saved
      unsaved := seen.unsaved.filter (fun step => decide (step ∉ enrollment.completed)) }
  | _, _ => seen

/-- The surroundings answer anything; the observer only looks on. -/
def observing : Surroundings (EnrollmentOp prim) (EnrollmentReply prim) (Seen prim) :=
  fun seen op reply after => after = seen.next op reply

/-- What may be called: the save of an unsaved step, and a command only when
the enrollment last saved has exactly the confirmed steps. -/
structure Allows (seen : Seen prim) (op : EnrollmentOp prim) : Prop where
  saves : ∀ step ∈ seen.unsaved, ∃ e, op = .save e ∧ step ∈ e.completed
  settled : ∀ command, op = .send command → ∀ e ∈ seen.saved, e.completed = seen.confirmed

structure Leaves (seen : Seen prim) (outcome : Except (EnrollmentExn prim) (Enrollment prim)) : Prop where
  saves : seen.unsaved = none
  stopped : ∀ step e cause, outcome = .error (.stopped step (some e) cause) → seen.saved = some e

/-- The surroundings answer, and the observer looks on. -/
def Observes (env : Surroundings (EnrollmentOp prim) (EnrollmentReply prim) (Seen prim)) : Prop :=
  ∀ seen op reply after, env seen op reply after → after = seen.next op reply

/-- No save is cancelled. -/
def Synchronous (env : Surroundings (EnrollmentOp prim) (EnrollmentReply prim) (Seen prim)) : Prop :=
  ∀ seen e after, ¬ env seen (.save e) (.error .cancelled) after

/-- What is left behind has exactly the confirmed steps. -/
structure Exact (seen : Seen prim) (outcome : Except (EnrollmentExn prim) (Enrollment prim)) : Prop where
  cancelled : outcome = .error (.plain .cancelled) → ∀ e ∈ seen.saved, e.completed = seen.confirmed
  stopped : ∀ step e cause, outcome = .error (.stopped step (some e) cause) → e.completed = seen.confirmed
  notSaved : ∀ step e cause, outcome = .error (.notSaved step e cause) → e.completed = seen.confirmed

structure Ends (env : Surroundings (EnrollmentOp prim) (EnrollmentReply prim) (Seen prim)) (seen : Seen prim)
    (outcome : Except (EnrollmentExn prim) (Enrollment prim)) : Prop where
  leaves : seen.Leaves outcome
  exact : Synchronous env → seen.Exact outcome

/-- Between the steps. -/
structure Settled (seen : Seen prim) (e : Enrollment prim) : Prop where
  saved : seen.saved = some e
  confirmed : e.completed = seen.confirmed
  unsaved : seen.unsaved = none

/-- From the confirmation of a step to its save. -/
structure Unsaved (seen : Seen prim) (step : EnrollmentStep) (e : Enrollment prim) : Prop where
  confirmed : e.completed = seen.confirmed
  unsaved : seen.unsaved = some step
  mem : step ∈ e.completed

/-- Nothing was confirmed or saved in between. -/
structure Same (seen after : Seen prim) : Prop where
  confirmed : after.confirmed = seen.confirmed
  saved : after.saved = seen.saved
  unsaved : after.unsaved = seen.unsaved

variable {seen after : Seen prim} {e : Enrollment prim}

theorem allows_send (hu : seen.unsaved = none) (hs : ∀ e ∈ seen.saved, e.completed = seen.confirmed)
    (command : CommandPayload) : seen.Allows (.send command) where
  saves := by simp [hu]
  settled _ _ := hs

theorem Same.refl (seen : Seen prim) : seen.Same seen := ⟨rfl, rfl, rfl⟩

theorem Same.trans {last : Seen prim} (h : seen.Same after) (h' : after.Same last) : seen.Same last :=
  ⟨h'.confirmed.trans h.confirmed, h'.saved.trans h.saved, h'.unsaved.trans h.unsaved⟩

theorem name_same (seen : Seen prim) (command : CommandPayload) : seen.Same (seen.name command) := by
  unfold name
  split <;> exact ⟨rfl, rfl, rfl⟩

theorem send_error (seen : Seen prim) (command : CommandPayload) (x : Exn) :
    seen.Same (seen.next (.send command) (.error x)) :=
  name_same seen command

theorem send_quiet {command : CommandPayload} {response : Response}
    (h : (seen.name command).confirms command response = none) :
    seen.Same (seen.next (.send command) (.ok response)) := by
  simp only [next, h]
  exact name_same seen command

theorem send_confirms {command : CommandPayload} {response : Response} {step : EnrollmentStep}
    (h : (seen.name command).confirms command response = some step) :
    (seen.next (.send command) (.ok response)).confirmed = insert step seen.confirmed ∧
      (seen.next (.send command) (.ok response)).saved = seen.saved ∧
      (seen.next (.send command) (.ok response)).unsaved = some step := by
  have hn := name_same seen command
  simp only [next, h, Option.elim_some, confirm, hn.confirmed, hn.saved, and_self]

theorem name_of_ne {command : CommandPayload} (h : command.commandId ≠ .userAuthBegin) :
    seen.name command = seen :=
  if_neg h

theorem confirms_of_confirmed (seen : Seen prim) {step : EnrollmentStep} {command : CommandPayload} {response : Response}
    {next : Enrollment prim} (hstep : step ≠ .ownerKey) (hc : StepCommand e step command)
    (hn : Confirmed e step response next) :
    (seen.name command).confirms command response = some step := by
  have hid := hc.commandId
  cases step with
  | ownerKey => exact absurd rfl hstep
  | deviceId => simp only [confirms, hid, EnrollmentStep.commandId]
  | clock => simp only [confirms, hid, EnrollmentStep.commandId]
  | serverKey =>
    obtain ⟨lockKey, hparse, -⟩ := hn
    simp only [confirms, hid, EnrollmentStep.commandId, hparse]
    rfl
  | name => simp only [confirms, hid, EnrollmentStep.commandId]

theorem confirms_unread (seen : Seen prim) {command : CommandPayload} {response : Response} {b : BleError}
    (hc : StepCommand e .serverKey command) (hp : parseServerKeyUpdate response = .error b) :
    (seen.name command).confirms command response = none := by
  have hid := hc.commandId
  simp only [confirms, hid, EnrollmentStep.commandId, hp]
  rfl

theorem Settled.of_same (h : seen.Settled e) (hs : seen.Same after) : after.Settled e where
  saved := hs.saved.trans h.saved
  confirmed := h.confirmed.trans hs.confirmed.symm
  unsaved := hs.unsaved.trans h.unsaved

theorem Settled.allows (h : seen.Settled e) (command : CommandPayload) : seen.Allows (.send command) := by
  refine allows_send h.unsaved ?_ command
  intro x hx
  rw [h.saved, Option.mem_some_iff] at hx
  exact hx ▸ h.confirmed

section

variable {env : Surroundings (EnrollmentOp prim) (EnrollmentReply prim) (Seen prim)}

theorem Settled.completed (h : seen.Settled e) : ∀ x ∈ seen.saved, x.completed = seen.confirmed := by
  intro x hx
  rw [h.saved, Option.mem_some_iff] at hx
  exact hx ▸ h.confirmed

theorem Settled.ends (h : seen.Settled e) (step : EnrollmentStep) (x : Exn) :
    seen.Ends env (.error (stopping step e (.plain x))) := by
  cases x with
  | ble b =>
    have hstopped : ∀ step' e' cause, (.error (stopping step e (.plain (.ble b))) :
        Except (EnrollmentExn prim) (Enrollment prim)) = .error (.stopped step' (some e') cause) → e = e' := by
      intro step' e' cause hx
      obtain ⟨-, he, -⟩ : step = step' ∧ e = e' ∧ b = cause := by simpa [stopping] using hx
      exact he
    refine ⟨⟨h.unsaved, ?_⟩, fun _ => ⟨by simp [stopping], ?_, by simp [stopping]⟩⟩
    · intro step' e' cause hx
      exact hstopped step' e' cause hx ▸ h.saved
    · intro step' e' cause hx
      exact hstopped step' e' cause hx ▸ h.confirmed
  | cancelled =>
    exact ⟨⟨h.unsaved, by simp [stopping]⟩, fun _ => ⟨fun _ => h.completed, by simp [stopping], by simp [stopping]⟩⟩
  | other name =>
    exact ⟨⟨h.unsaved, by simp [stopping]⟩, fun _ => ⟨by simp [stopping], by simp [stopping], by simp [stopping]⟩⟩

theorem runStep_ensures (hobs : Observes env) {now : Option DateTime} {step : EnrollmentStep}
    (hstep : step ≠ .ownerKey) (h : seen.Settled e) :
    (runStep e now step).Ensures env Allows (fun seen out =>
      match out with
      | .ok next => seen.Unsaved step next
      | .error x => seen.Ends env (.error (stopping step e x))) seen := by
  refine ensures_runStep hstep ?_ ?_ ?_ ?_ ?_ ?_ ?_
  · intro s r s' hs
    exact hobs _ _ _ _ hs
  · exact ⟨by simp [h.unsaved], by simp⟩
  · intro moment x _ _ _ _
    exact h.ends step x
  · intro command hc
    exact h.allows command
  · intro command response s' next hc hs hn
    obtain rfl := hobs _ _ _ _ hs
    obtain ⟨hconfirmed, hsaved, hunsaved⟩ :=
      send_confirms (confirms_of_confirmed seen hstep hc hn)
    refine ⟨?_, hunsaved, ?_⟩
    · rw [hconfirmed, hn.completed, h.confirmed]
    · rw [hn.completed]
      exact Finset.mem_insert_self _ _
  · rintro command response s' b hc hs rfl hp
    obtain rfl := hobs _ _ _ _ hs
    exact (h.of_same (send_quiet (confirms_unread seen hc hp))).ends .serverKey (.ble b)
  · intro command x s' hc hs
    obtain rfl := hobs _ _ _ _ hs
    exact (h.of_same (send_error seen command x)).ends step x

theorem save_ensures (hobs : Observes env) {step : EnrollmentStep} (h : seen.Unsaved step e) :
    (save step e).Ensures env Allows (fun seen out =>
      match out with
      | .ok () => seen.Settled e
      | .error x => seen.Ends env (.error x)) seen := by
  have hcleared : seen.unsaved.filter (fun step => decide (step ∉ e.completed)) = none := by
    rw [h.unsaved]
    simp [Option.filter, h.mem]
  refine ensures_save ⟨?_, by simp⟩ ?_ ?_ ?_
  · intro step' hs
    rw [h.unsaved, Option.mem_some_iff] at hs
    exact ⟨e, rfl, hs ▸ h.mem⟩
  · intro s' hs
    obtain rfl := hobs _ _ _ _ hs
    exact ⟨rfl, h.confirmed, hcleared⟩
  · intro x s' hs _
    obtain rfl := hobs _ _ _ _ hs
    refine ⟨⟨hcleared, by simp⟩, fun _ => ⟨by simp, by simp, ?_⟩⟩
    rintro step' e' cause ⟨⟩
    exact h.confirmed
  · intro x s' hs _
    obtain rfl := hobs _ _ _ _ hs
    refine ⟨⟨hcleared, by simp⟩, fun hsync => ⟨?_, by simp, by simp⟩⟩
    rintro ⟨⟩
    exact absurd hs (hsync _ _ _)

theorem runRemaining_ensures (hobs : Observes env) {now : Option DateTime} (h : seen.Settled e) :
    (runRemaining e now).Ensures env Allows (Ends env) seen := by
  refine ensures_runRemaining (J := fun e seen => seen.Settled e)
    (K := fun step e seen => seen.Unsaved step e) ?_ ?_ ?_ h
  · intro step e seen hne hj
    exact runStep_ensures hobs hne hj
  · intro step e seen hk
    exact save_ensures hobs hk
  · intro e seen hj
    exact ⟨⟨hj.unsaved, by simp⟩, fun _ => ⟨by simp, by simp, by simp⟩⟩

theorem save_runRemaining_ensures (hobs : Observes env) {now : Option DateTime} {step : EnrollmentStep}
    (h : seen.Unsaved step e) :
    (save step e >>= fun _ => runRemaining e now).Ensures env Allows (Ends env) seen :=
  (save_ensures hobs h).bind (fun _ _ hs => runRemaining_ensures hobs hs) (fun _ _ hx => hx)

/-! The logins. -/

/-- After a login with a device id: a new one proves the device id step. -/
def LoggedIn (seen : Seen prim) (deviceId : Bytes) (after : Seen prim) : Prop :=
  if deviceId ≠ defaultDeviceId ∧ .deviceId ∉ seen.confirmed then
    after.confirmed = insert .deviceId seen.confirmed ∧ after.saved = seen.saved ∧
      after.unsaved = some .deviceId
  else seen.Same after

theorem LoggedIn.of_same {deviceId : Bytes} {last : Seen prim} (h : seen.Same after)
    (hl : after.LoggedIn deviceId last) : seen.LoggedIn deviceId last := by
  unfold LoggedIn at hl ⊢
  rw [h.confirmed, h.saved] at hl
  split_ifs with hnew
  · rwa [if_pos hnew] at hl
  · rw [if_neg hnew] at hl
    exact h.trans hl

theorem send_loggedIn {command : CommandPayload} {response : Response}
    (h : command.commandId = .userAuthFinalize) :
    seen.LoggedIn seen.named (seen.next (.send command) (.ok response)) := by
  have hname : seen.name command = seen := name_of_ne (by simp [h])
  by_cases hnew : seen.named ≠ defaultDeviceId ∧ .deviceId ∉ seen.confirmed
  · rw [LoggedIn, if_pos hnew]
    refine send_confirms ?_
    rw [hname]
    simp only [confirms, h]
    exact if_pos hnew
  · rw [LoggedIn, if_neg hnew]
    refine send_quiet ?_
    rw [hname]
    simp only [confirms, h]
    exact if_neg hnew

theorem login_ensures (hobs : Observes env) {credential : OwnerCredential} (hu : seen.unsaved = none)
    (hs : ∀ e ∈ seen.saved, e.completed = seen.confirmed) :
    (authenticateOwner credential : EnrollmentProgram prim Unit).Ensures env Allows (fun after out =>
      match out with
      | .ok () => seen.LoggedIn credential.deviceId after
      | .error x => seen.Same after ∧ ∃ y, x = .plain y) seen := by
  have hsame : seen.Same { seen with named := credential.deviceId } := ⟨rfl, rfl, rfl⟩
  refine ensures_authenticateOwner (B := fun begun => begun = { seen with named := credential.deviceId })
    (fun _ => allows_send hu hs _) ?_ ?_ ?_ ?_ ?_ ?_ ?_ ?_
  · intro user r begun hr
    exact hobs _ _ _ _ hr
  · intro user x s' hr
    obtain rfl := hobs _ _ _ _ hr
    exact ⟨send_error seen _ x, x, rfl⟩
  · rintro begun x rfl
    exact ⟨hsame, x, rfl⟩
  · rintro begun rfl
    exact ⟨by simp [hu], by simp⟩
  · rintro begun keys s' rfl hr
    obtain rfl := hobs _ _ _ _ hr
    rfl
  · rintro begun c rfl _
    refine allows_send ?_ ?_ c
    · exact hu
    · exact hs
  · rintro begun c r s' rfl hid hr
    obtain rfl := hobs _ _ _ _ hr
    exact LoggedIn.of_same hsame (send_loggedIn hid)
  · rintro begun c x s' rfl hid hr
    obtain rfl := hobs _ _ _ _ hr
    exact ⟨hsame.trans (send_error _ c x), x, rfl⟩

/-- A failure between the steps, with what was saved before. -/
def Balanced (seen : Seen prim) : Prop :=
  seen.unsaved = none ∧ ∀ e ∈ seen.saved, e.completed = seen.confirmed

theorem Balanced.of_same (h : seen.Balanced) (hs : seen.Same after) : after.Balanced := by
  refine ⟨hs.unsaved.trans h.1, ?_⟩
  rw [hs.saved, hs.confirmed]
  exact h.2

theorem Settled.balanced (h : seen.Settled e) : seen.Balanced := ⟨h.unsaved, h.completed⟩

theorem Balanced.ends (h : seen.Balanced) (x : Exn) : seen.Ends env (.error (.plain x)) :=
  ⟨⟨h.1, by simp⟩, fun _ => ⟨fun _ => h.2, by simp, by simp⟩⟩

theorem logInToResume_ensures (hobs : Observes env) (h : seen.Settled e) :
    (logInToResume e).Ensures env Allows (fun after out =>
      match out with
      | .ok none => after.Settled e
      | .ok (some loggedIn) => after.Unsaved .deviceId loggedIn
      | .error x => after.Balanced ∧ ∃ y, x = .plain y) seen := by
  have hquiet : ¬ (e.ownerCredential.deviceId ≠ defaultDeviceId ∧ .deviceId ∉ seen.confirmed) := by
    rintro ⟨hne, hmem⟩
    rw [← h.confirmed] at hmem
    simp [Enrollment.ownerCredential, hmem] at hne
  refine ensures_logInToResume (J := fun after => after.Settled e) ?_ ?_
  · refine (login_ensures hobs h.unsaved h.completed).mono ?_
    rintro after (x | u) hin
    · have hj := h.of_same hin.1
      exact ⟨hj, hj.balanced, hin.2⟩
    · rw [LoggedIn, if_neg hquiet] at hin
      exact h.of_same hin
  · intro after hmem hj
    refine (login_ensures hobs hj.unsaved hj.completed).mono ?_
    rintro last (x | u) hin
    · exact ⟨hj.balanced.of_same hin.1, hin.2⟩
    · intro next hnext
      have hnew : e.enrolledCredential.deviceId ≠ defaultDeviceId ∧ .deviceId ∉ after.confirmed :=
        ⟨e.valid.deviceId.2, hj.confirmed ▸ hmem⟩
      rw [LoggedIn, if_pos hnew] at hin
      have hcompleted : next.completed = insert .deviceId e.completed := by rw [hnext]
      refine ⟨?_, hin.2.2, ?_⟩
      · rw [hcompleted, hin.1, hj.confirmed]
      · rw [hcompleted]
        exact Finset.mem_insert_self _ _

theorem resumeEnrollment_ensures (hobs : Observes env) (e : Enrollment prim) (now : Option DateTime) :
    (resumeEnrollment e now).Ensures env Allows (Ends env) (resuming e) := by
  have h : (resuming e).Settled e := ⟨rfl, rfl, rfl⟩
  by_cases hc : e.complete = true
  · rw [resumeEnrollment, if_pos hc]
    exact ⟨⟨rfl, by simp⟩, fun _ => ⟨by simp, by simp, by simp⟩⟩
  · rw [resumeEnrollment, if_neg hc]
    refine (logInToResume_ensures hobs h).bind ?_ ?_
    · rintro after (_ | loggedIn) hin
      · exact runRemaining_ensures hobs hin
      · exact save_runRemaining_ensures hobs hin
    · rintro after x ⟨hbalanced, y, rfl⟩
      exact hbalanced.ends y

/-! The start of `enroll`, before anything is saved. -/

theorem fresh_balanced (h : fresh.Same seen) : seen.Balanced :=
  Balanced.of_same ⟨rfl, by simp [fresh]⟩ h

theorem updateOwnerKey_ensures (hobs : Observes env) {pair : KeyPair} (h : fresh.Same seen) (hpair : seen.keyPair = some pair) :
    (updateOwnerKey pair : EnrollmentProgram prim (Bytes × Bytes)).Ensures env Allows (fun after out =>
      match out with
      | .ok p => p.1.length = publicKeyLength ∧ deriveOwnerKey prim pair.privateKey p.1 = .ok p.2 ∧
          after.confirmed = {.ownerKey} ∧ after.unsaved = some .ownerKey
      | .error x => after.Balanced ∧ ∃ y, x = .plain y) seen := by
  have hu : seen.Balanced := fresh_balanced h
  refine Ensures.seq (ensures_request ?_ ?_ ?_ ?_ ?_)
  · intro x _
    exact ⟨hu, _, rfl⟩
  · intro c _
    exact allows_send hu.1 hu.2 c
  · intro c r after lockKey hc hs hparse
    obtain rfl := hobs _ _ _ _ hs
    have hname : seen.name c = seen := name_of_ne (by simp [userAuthUpdate_commandId hc])
    refine Ensures.seq (ensures_raising ?_ ?_)
    · intro ownerKey howner
      have hconfirms : (seen.name c).confirms c r = some .ownerKey := by
        simp only [hname, confirms, userAuthUpdate_commandId hc, hpair, hparse, howner]
        rfl
      obtain ⟨hconfirmed, -, hunsaved⟩ := send_confirms hconfirms
      refine ⟨parseBytes_length hparse, howner, ?_, hunsaved⟩
      rw [hconfirmed, h.confirmed]
      rfl
    · intro x hx
      have hquiet : (seen.name c).confirms c r = none := by
        simp only [hname, confirms, userAuthUpdate_commandId hc, hpair, hparse, hx]
        rfl
      exact ⟨hu.of_same (send_quiet hquiet), x, rfl⟩
  · intro c r after b hc hs hparse
    obtain rfl := hobs _ _ _ _ hs
    have hname : seen.name c = seen := name_of_ne (by simp [userAuthUpdate_commandId hc])
    have hquiet : (seen.name c).confirms c r = none := by
      simp only [hname, confirms, userAuthUpdate_commandId hc, hparse]
    exact ⟨hu.of_same (send_quiet hquiet), _, rfl⟩
  · intro c x after _ hs
    obtain rfl := hobs _ _ _ _ hs
    exact ⟨hu.of_same (send_error seen c x), x, rfl⟩

theorem caughtOwnerKey_ensures (hobs : Observes env) {pair : KeyPair} (h : fresh.Same seen) (hpair : seen.keyPair = some pair) :
    (catchBle (updateOwnerKey pair) (fun b => .fail (.stopped .ownerKey none b)) :
      EnrollmentProgram prim (Bytes × Bytes)).Ensures env Allows (fun after out =>
        match out with
        | .ok p => p.1.length = publicKeyLength ∧ deriveOwnerKey prim pair.privateKey p.1 = .ok p.2 ∧
            after.confirmed = {.ownerKey} ∧ after.unsaved = some .ownerKey
        | .error x => after.Ends env (.error x)) seen := by
  refine ensures_catchBle (updateOwnerKey_ensures hobs h hpair) (fun s a h => h) ?_ ?_
  · rintro s b ⟨hu, -⟩
    exact ⟨⟨hu.1, by simp⟩, fun _ => ⟨by simp, by simp, by simp⟩⟩
  · rintro s x ⟨hu, y, rfl⟩ -
    exact hu.ends y

theorem enroll_ensures (hobs : Observes env) (arguments : EnrollArguments) :
    (enroll arguments : EnrollmentProgram prim (Enrollment prim)).Ensures env Allows (Ends env) fresh := by
  have hplain : ∀ (s : Seen prim) x, fresh.Same s → s.Ends env (.error (.plain x)) :=
    fun s x hs => (fresh_balanced hs).ends x
  have hcall : ∀ (s : Seen prim) op, fresh.Same s → (∀ command, op ≠ .send command) → s.Allows op := by
    intro s op hs hop
    refine ⟨?_, fun command he => absurd he (hop command)⟩
    rw [show s.unsaved = none from hs.unsaved]
    simp
  have hkey : ∀ (s : Seen prim) r, fresh.Same s → fresh.Same (s.next .keyPairFactory r) := by
    intro s r hs
    cases r with
    | ok pair => exact ⟨hs.confirmed, hs.saved, hs.unsaved⟩
    | error x => exact hs
  refine (ensures_prepare (P := fun s => fresh.Same s) (Same.refl fresh) ?_ ?_ ?_ ?_).bind ?_ ?_
  · intro s r s' hs hr
    obtain rfl := hobs _ _ _ _ hr
    exact hs
  · intro s r s' hs hr
    obtain rfl := hobs _ _ _ _ hr
    exact hkey s r hs
  · exact fun s hs => hcall s _ hs (by simp)
  · exact fun s hs => hcall s _ hs (by simp)
  · rintro s ⟨deviceId, serverPrivateKey⟩ ⟨hs, hprepared⟩
    refine (login_ensures hobs hs.unsaved (by simp [hs.saved, fresh])).bind ?_ ?_
    · intro s' _ hin
      have hs' : fresh.Same s' := by
        rw [LoggedIn, if_neg (by simp [defaultOwnerCredential])] at hin
        exact hs.trans hin
      refine Ensures.seq (ensures_keyPairFactory (hcall s' _ hs' (by simp)) ?_ ?_)
      · intro pair _ hr
        obtain rfl := hobs _ _ _ _ hr
        refine (caughtOwnerKey_ensures hobs (hkey s' (.ok pair) hs') rfl).bind ?_ ?_
        · rintro s ⟨lockKey, ownerKey⟩ ⟨hlen, howner, hconfirmed, hunsaved⟩
          have hv := hprepared.valid hlen howner
          refine Ensures.seq (ensures_ofFields hv (fun e he => ?_))
          have hcompleted : e.completed = {.ownerKey} := by rw [he, EnrollmentFields.first]
          refine save_runRemaining_ensures hobs ⟨hcompleted.trans hconfirmed.symm, hunsaved, ?_⟩
          rw [hcompleted]
          exact Finset.mem_singleton_self _
        · exact fun s x h => h
      · intro x s'' hr
        obtain rfl := hobs _ _ _ _ hr
        exact hplain _ x hs'
    · rintro s' x ⟨hsame, y, rfl⟩
      exact hplain s' y (hs.trans hsame)
  · rintro s x ⟨hs, y, rfl⟩
    exact hplain s y hs

theorem observes_observing : Observes (observing : Surroundings (EnrollmentOp prim) _ (Seen prim)) :=
  fun _ _ _ _ h => h

end

end Seen

/-- The two entry points, with what was saved and confirmed before. -/
inductive Entered : EnrollmentProgram prim (Enrollment prim) → Seen prim → Prop
  | enroll (arguments : EnrollArguments) : Entered (enroll arguments) Seen.fresh
  | resume (e : Enrollment prim) (now : Option DateTime) :
      Entered (resumeEnrollment e now) (Seen.resuming e)

/-- A point of a run keeps to the law: the call that comes next, or how it ended. -/
structure WriteAhead (seen : Seen prim) (p : EnrollmentProgram prim (Enrollment prim)) : Prop where
  saves : ∀ step ∈ seen.unsaved, ∃ e next, p = .call (.save e) next ∧ step ∈ e.completed
  settled : ∀ command next, p = .call (.send command) next → ∀ e ∈ seen.saved, e.completed = seen.confirmed
  stopped : ∀ step e cause, p = .fail (.stopped step (some e) cause) → seen.saved = some e

/-- At every point of every run of `enroll` and `resume_enrollment`, every confirmed
step has been saved before the next command goes out, and a stop carries what was saved. -/
theorem enrollment_writeAhead {p q : EnrollmentProgram prim (Enrollment prim)} {seen after : Seen prim}
    (hp : Entered p seen) (hs : Steps Seen.observing seen p after q) : WriteAhead after q := by
  have h : q.Ensures Seen.observing Seen.Allows Seen.Leaves after := by
    cases hp with
    | enroll arguments =>
      have hends := (Seen.enroll_ensures Seen.observes_observing arguments).of_steps hs
      exact hends.mono (fun s out h => h.leaves)
    | resume e now =>
      have hends := (Seen.resumeEnrollment_ensures Seen.observes_observing e now).of_steps hs
      exact hends.mono (fun s out h => h.leaves)
  cases q with
  | done e => exact ⟨by simp [h.saves], by simp, by simp⟩
  | fail x =>
    refine ⟨by simp [h.saves], by simp, ?_⟩
    rintro step e cause ⟨⟩
    exact h.stopped step e cause rfl
  | call op next =>
    refine ⟨?_, ?_, by simp⟩
    · intro step hstep
      obtain ⟨e, rfl, he⟩ := h.1.saves step hstep
      exact ⟨e, next, rfl, he⟩
    · rintro command _ ⟨⟩
      exact h.1.settled command rfl

/-- A resume whose first login is refused and whose second is not. -/
theorem enrollment_writeAhead_secondLogin : ∃ seen p,
    Steps Seen.observing (Seen.resuming frontDoor) (resumeEnrollment frontDoor none) seen p ∧
      seen.unsaved = some .deviceId ∧ WriteAhead seen p := by
  have hrun : ∃ seen p,
      Steps Seen.observing (Seen.resuming frontDoor) (resumeEnrollment frontDoor none) seen p ∧
        seen.unsaved = some .deviceId := by
    refine ⟨_, _, .call (r := .error (.ble (.operation statusSecurityError 0))) rfl
      (.call (r := .ok ⟨CommandId.userAuthBegin.value, 1, 0, List.replicate 16 0⟩) rfl
      (.call (r := .ok ⟨List.replicate 16 0, List.replicate 16 0, rfl, rfl⟩) rfl
      (.call (r := .ok ⟨CommandId.userAuthFinalize.value, 1, 0, []⟩) rfl (.refl _ _)))), rfl⟩
  obtain ⟨seen, p, hs, hu⟩ := hrun
  exact ⟨seen, p, hs, hu, enrollment_writeAhead (.resume frontDoor none) hs⟩

end OnestiLock
