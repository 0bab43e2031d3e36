import OnestiLock.EnrollmentCrash

/-! An interrupted enrollment can always be finished: an undisturbed resume
from what was saved last completes it, in agreement with the lock. -/

namespace OnestiLock

open Program

variable {prim : Primitives}

namespace Scene

variable {s s' : Scene prim} {e : Enrollment prim} {moment : UtcNow}

def calm (moment : UtcNow) : Surroundings (EnrollmentOp prim) (EnrollmentReply prim) (Scene prim) :=
  fun s op reply s' => (reply, s') = faultless moment s op

/-- Both ends have the link's iv. -/
def Keyed (s : Scene prim) : Prop := s.transport.linkIv = some s.session.keys.iv

theorem finalize_calm {deviceId given : Bytes} (hk : s.Keyed) (hb : s.transport.begunDeviceId = some deviceId)
    (hg : answerOwnerChallenge prim s.lock.challenge s.lock.ownerKey s.session.keys.iv = .ok given)
    (hlen : given.length = challengeLength) :
    (sendCommand (userAuthFinalize given) >>= fun _ => pure () : EnrollmentProgram prim Unit).Ensures
      (calm moment) (fun _ _ => True) (fun s' out => s.Unchanged s' ∧ s'.Keyed ∧
        if deviceId = s.lock.deviceId then out = .ok () ∧ s'.transport.authenticated = true
        else ∃ b, out = .error (.plain (.ble b)) ∧ b.isSecurityError = true) s := by
  have hexpected : s.lock.expectedAnswer s.session.keys.iv = .ok given := by
    rw [FakeLock.expectedAnswer_eq, hg]
  have hd := deliver_answer hlen hk hexpected hb
  have havail : (availability ⟨.userAuthFinalize, given⟩ s.session.firmware s.session.model).isAvailable = true :=
    availability_enrollment (by simp) _ _
  rw [userAuthFinalize_ok hlen]
  by_cases hdevice : deviceId = s.lock.deviceId
  · rw [if_pos hdevice] at hd
    have hsend := send_answered havail hd
    refine Ensures.seq (ensures_sendCommand (by rintro x ⟨⟩) (fun _ _ => trivial) ?_ ?_)
    · rintro c r s' ⟨⟩ hs
      obtain ⟨-, rfl⟩ := Prod.mk.inj (hs.trans hsend)
      refine ⟨⟨rfl, rfl, rfl⟩, hk, ?_⟩
      rw [if_pos hdevice]
      exact ⟨rfl, rfl⟩
    · rintro c x s' ⟨⟩ hs
      obtain ⟨hok, -⟩ := Prod.mk.inj (hs.trans hsend)
      simp at hok
  · rw [if_neg hdevice] at hd
    have hsend := send_refused havail hd
    refine Ensures.seq (ensures_sendCommand (by rintro x ⟨⟩) (fun _ _ => trivial) ?_ ?_)
    · rintro c r s' ⟨⟩ hs
      obtain ⟨hok, -⟩ := Prod.mk.inj (hs.trans hsend)
      simp at hok
    · rintro c x s' ⟨⟩ hs
      obtain ⟨hx, rfl⟩ := Prod.mk.inj (hs.trans hsend)
      obtain rfl := Except.error.inj hx
      refine ⟨⟨rfl, rfl, rfl⟩, hk, ?_⟩
      rw [if_neg hdevice]
      exact ⟨_, rfl, rfl⟩

/-- A login names the lock's device id and goes through, or another one and
is refused for it. -/
theorem login_calm {credential : OwnerCredential} (hk : s.Keyed)
    (huser : credential.userId = defaultAdminUserId) (hkey : s.lock.ownerKey = credential.key) :
    (authenticateOwner credential : EnrollmentProgram prim Unit).Ensures (calm moment) (fun _ _ => True)
      (fun s' out => s.Unchanged s' ∧ s'.Keyed ∧
        if credential.deviceId = s.lock.deviceId then out = .ok () ∧ s'.transport.authenticated = true
        else ∃ b, out = .error (.plain (.ble b)) ∧ b.isSecurityError = true) s := by
  obtain ⟨user, hzero, hbegin⟩ := userAuthBegin_ok credential
  obtain rfl := hzero huser
  have hchallenge : ∃ given, answerOwnerChallenge prim s.lock.challenge credential.key s.session.keys.iv =
      .ok given ∧ given.length = challengeLength :=
    answerOwnerChallenge_ok s.lock.challenge_length credential.key_length s.session.keys.iv_length
  obtain ⟨given, hgiven, hlen⟩ := hchallenge
  have hfirst : s.send ⟨.userAuthBegin, 0 :: credential.deviceId⟩ .answered = _ :=
    send_answered (availability_enrollment (by simp) _ _) (deliver_begin s credential.deviceId_length)
  have hparse := parseBytes_answer .userAuthBegin s.session.refs.next.1 s.lock.challenge_length
  simp only [authenticateOwner, hbegin]
  refine Ensures.seq (ensures_request (by rintro x ⟨⟩) (fun _ _ => trivial) ?_ ?_ ?_)
  · rintro c r begun challenge ⟨⟩ hs hr
    obtain ⟨hok, hbegun⟩ := Prod.mk.inj (hs.trans hfirst)
    obtain rfl := Except.ok.inj hok
    obtain rfl := Except.ok.inj (hr.symm.trans hparse)
    have hu : s.Unchanged begun := by
      subst hbegun
      exact ⟨rfl, rfl, rfl⟩
    have hkeyed : begun.Keyed := by
      subst hbegun
      exact hk
    have hnamed : begun.transport.begunDeviceId = some credential.deviceId := by
      subst hbegun
      rfl
    have hanswer : answerOwnerChallenge prim begun.lock.challenge begun.lock.ownerKey begun.session.keys.iv =
        .ok given := by
      rw [hu.lock, hu.keys, hkey, hgiven]
    have hours : answerOwnerChallenge prim s.lock.challenge credential.key begun.session.keys.iv = .ok given := by
      rw [hu.keys, hgiven]
    refine Ensures.seq (ensures_linkKeys trivial ?_ ?_)
    · rintro keys same hs
      obtain ⟨hok, rfl⟩ := Prod.mk.inj hs
      obtain rfl := Except.ok.inj hok
      refine Ensures.seq (ensures_raising ?_ ?_)
      · intro answer hanswered
        obtain rfl := Except.ok.inj (hanswered.symm.trans hours)
        refine (finalize_calm hkeyed hnamed hanswer hlen).mono ?_
        rintro s' out ⟨hu', hk', hout⟩
        rw [hu.lock] at hout
        exact ⟨hu.trans hu', hk', hout⟩
      · intro x hx
        exact absurd (hx.symm.trans hours) (by simp)
    · rintro x same hs
      obtain ⟨hok, -⟩ := Prod.mk.inj hs
      simp at hok
  · rintro c r begun b ⟨⟩ hs hr
    obtain ⟨hok, -⟩ := Prod.mk.inj (hs.trans hfirst)
    obtain rfl := Except.ok.inj hok
    exact absurd (hr.symm.trans hparse) (by simp)
  · rintro c x begun ⟨⟩ hs
    obtain ⟨hok, -⟩ := Prod.mk.inj (hs.trans hfirst)
    simp at hok

/-- Logged in, between the steps. -/
structure Live (s : Scene prim) (e : Enrollment prim) : Prop where
  settled : s.Settled e
  authenticated : s.transport.authenticated = true

/-- How the resume ends. -/
def Finished (s : Scene prim) (out : Except (EnrollmentExn prim) (Enrollment prim)) : Prop :=
  ∃ e, out = .ok e ∧ e.complete = true ∧ s.Settled e

theorem send_step {step : EnrollmentStep} {command : CommandPayload} (h : s.Live e)
    (hstep : step ≠ .ownerKey) (hc : StepCommand e step command) : ∃ response s',
      s.send command .answered = (.ok response, s') ∧ s'.Live e ∧
        (step = .serverKey → ∃ key, parseServerKeyUpdate response = .ok key) ∧
        ∀ next, Confirmed e step response next → Matches next s'.lock := by
  obtain ⟨lock, payload, hd, hkey⟩ := deliver_step h.authenticated hc
  have havail : (availability command s.session.firmware s.session.model).isAvailable = true := by
    refine availability_enrollment ?_ _ _
    rw [hc.commandId]
    cases step <;> decide
  have hsend := send_answered havail hd
  obtain ⟨hsettled, hnext⟩ := h.settled.send hstep hc hsend.symm
  refine ⟨_, _, hsend, ⟨hsettled, h.authenticated⟩, ?_, fun next hn => hnext _ next rfl hn⟩
  rintro rfl
  refine ⟨payload, ?_⟩
  rw [hc.commandId]
  exact parseBytes_answer .serverKeyUpdate _ (hkey rfl)

theorem runRemaining_calm {now : Option DateTime} (h : s.Live e) (hnow : ∀ given ∈ now, given.Acceptable)
    (hmoment : moment.val.Acceptable) :
    (runRemaining e now).Ensures (calm moment) (fun _ _ => True) Finished s := by
  refine ensures_runSteps
    (J := fun steps e s => s.Live e ∧ .ownerKey ∉ steps ∧ ∀ step, step ∈ e.completed ∨ step ∈ steps)
    (K := fun _ steps next s => Matches next s.lock ∧ s.transport.authenticated = true ∧ .ownerKey ∉ steps ∧
      ∀ step, step ∈ next.completed ∨ step ∈ steps) ?_ ?_ ?_ ⟨h, ?_, ?_⟩
  · rintro step rest e s ⟨hj, hmem, hall⟩
    have hne : step ≠ .ownerKey := fun he => hmem (he ▸ List.mem_cons_self)
    refine ensures_runStep hne ?_ trivial ?_ (fun _ _ => trivial) ?_ ?_ ?_
    · intro s r s' hs
      exact (Prod.mk.inj hs).2
    · intro given x _ hgiven hfresh hx
      have hacceptable : given.Acceptable := by
        cases hn : now with
        | some m => exact hgiven m hn ▸ hnow m hn
        | none =>
          obtain ⟨fresh, s', hs, rfl⟩ := hfresh hn
          exact (Prod.mk.inj hs).1 ▸ hmoment
      obtain ⟨time, ht⟩ := toLockTime_acceptable hacceptable
      simp [ht] at hx
    · intro command response s' next hc hs hn
      obtain ⟨response', s'', hsend, hlive, -, hmatch⟩ := send_step hj hne hc
      obtain ⟨hr, rfl⟩ := Prod.mk.inj (hs.trans hsend)
      obtain rfl := Except.ok.inj hr
      refine ⟨hmatch next hn, hlive.authenticated, fun hm => hmem (List.mem_cons_of_mem _ hm), ?_⟩
      intro x
      rw [hn.completed, Finset.mem_insert]
      rcases hall x with hx | hx
      · exact .inl (.inr hx)
      · rcases List.mem_cons.mp hx with rfl | hx
        · exact .inl (.inl rfl)
        · exact .inr hx
    · intro command response s' b hc hs hserver hparse
      obtain ⟨response', s'', hsend, -, hkey, -⟩ := send_step hj hne hc
      obtain ⟨hr, -⟩ := Prod.mk.inj (hs.trans hsend)
      obtain rfl := Except.ok.inj hr
      obtain ⟨key, hk⟩ := hkey hserver
      simp [hk] at hparse
    · intro command x s' hc hs
      obtain ⟨response', s'', hsend, -⟩ := send_step hj hne hc
      obtain ⟨hr, -⟩ := Prod.mk.inj (hs.trans hsend)
      simp at hr
  · rintro step rest next s ⟨hm, hauth, hmem, hall⟩
    refine ensures_save trivial ?_ ?_ ?_
    · intro s' hs
      obtain ⟨-, rfl⟩ := Prod.mk.inj hs
      exact ⟨⟨⟨rfl, hm⟩, hauth⟩, hmem, hall⟩
    · intro x s' hs
      obtain ⟨hr, -⟩ := Prod.mk.inj hs
      simp at hr
    · intro x s' hs
      obtain ⟨hr, -⟩ := Prod.mk.inj hs
      simp at hr
  · rintro e s ⟨hj, -, hall⟩
    refine ⟨e, rfl, ?_, hj.settled⟩
    simpa [Enrollment.complete] using fun step _ => by simpa using hall step
  · simp [Enrollment.remaining, e.valid.completed]
  · intro step
    by_cases hm : step ∈ e.completed
    · exact .inl hm
    · exact .inr (List.mem_filter.mpr ⟨EnrollmentStep.mem_all step, by simpa using hm⟩)

/-- After the logins of a resume: as before, or with the device id proved. -/
def LoggedIn (s : Scene prim) (e : Enrollment prim)
    (out : Except (EnrollmentExn prim) (Option (Enrollment prim))) : Prop :=
  s.transport.authenticated = true ∧ s.Settled e ∧
    (out = .ok none ∨ ∃ next, out = .ok (some next) ∧ Matches next s.lock)

theorem logInToResume_calm (hk : s.Keyed) (h : s.Settled e) :
    (logInToResume e).Ensures (calm moment) (fun _ _ => True) (fun s' out => s'.LoggedIn e out) s := by
  have huser : e.ownerCredential.userId = defaultAdminUserId ∧ s.lock.ownerKey = e.ownerCredential.key := by
    unfold Enrollment.ownerCredential
    split_ifs <;> exact ⟨h.agrees.user, h.agrees.ownerKey⟩
  have hfirst : ((authenticateOwner e.ownerCredential >>= fun _ => pure none) :
      EnrollmentProgram prim (Option (Enrollment prim))).Ensures (calm moment) (fun _ _ => True)
        (fun s' out => s.Unchanged s' ∧ s'.Keyed ∧
          if e.ownerCredential.deviceId = s.lock.deviceId then out = .ok none ∧ s'.transport.authenticated = true
          else ∃ b, out = .error (.plain (.ble b)) ∧ b.isSecurityError = true) s := by
    refine (login_calm hk huser.1 huser.2).bind ?_ ?_
    · rintro s' _ ⟨hu, hk', hout⟩
      refine ⟨hu, hk', ?_⟩
      split_ifs at hout ⊢ with hd
      · exact ⟨rfl, hout.2⟩
      · obtain ⟨b, hb, -⟩ := hout
        simp at hb
    · rintro s' x ⟨hu, hk', hout⟩
      refine ⟨hu, hk', ?_⟩
      split_ifs at hout ⊢ with hd
      · simp at hout
      · obtain ⟨b, hb, hsec⟩ := hout
        exact ⟨b, by simpa using hb, hsec⟩
  refine ensures_catchBle hfirst ?_ ?_ ?_
  · rintro s' out ⟨hu, -, hout⟩
    split_ifs at hout with hd
    · exact ⟨hout.2, h.of_unchanged hu, .inl hout.1⟩
    · obtain ⟨b, hb, -⟩ := hout
      simp at hb
  · rintro s' b ⟨hu, hk', hout⟩
    split_ifs at hout with hd
    · simp at hout
    · obtain ⟨b', hb, hsec⟩ := hout
      obtain rfl : b = b' := by simpa using hb
      have hmem : .deviceId ∉ e.completed := by
        intro hm
        exact hd (by simp [Enrollment.ownerCredential, hm, Enrollment.enrolledCredential, h.agrees.deviceId hm])
      have hheld : e.enrolledCredential.deviceId = s'.lock.deviceId := by
        rw [hu.lock]
        rcases h.agrees.held with hdefault | hours
        · exact absurd (by simp [Enrollment.ownerCredential, hmem, hdefault]) hd
        · exact hours.symm
      have hj := h.of_unchanged hu
      rw [if_neg (by simp [hsec]), if_neg hmem]
      refine (login_calm hk' h.agrees.user hj.agrees.ownerKey).bind ?_ ?_
      · rintro last _ ⟨hu', -, hout⟩
        rw [if_pos hheld] at hout
        have hlast := hj.of_unchanged hu'
        refine Ensures.seq (ensures_confirm (by simp) (fun next hnext => ?_))
        have hconfirmed : Confirmed e .deviceId ⟨0, 0, 0, []⟩ next := hnext
        refine ⟨hout.2, hlast, .inr ⟨next, rfl, hlast.agrees.confirmed hconfirmed (fun _ => ?_) (by simp)⟩⟩
        rw [hu'.lock]
        exact hheld.symm
      · rintro last x ⟨-, -, hout⟩
        rw [if_pos hheld] at hout
        simp at hout
  · rintro s' x ⟨-, -, hout⟩ hne
    split_ifs at hout with hd
    · simp at hout
    · obtain ⟨b, hb, -⟩ := hout
      exact absurd (by simpa using hb) (hne b)

theorem resumeEnrollment_calm {now : Option DateTime} (hk : s.Keyed) (h : s.Settled e)
    (hnow : ∀ given ∈ now, given.Acceptable) (hmoment : moment.val.Acceptable) :
    (resumeEnrollment e now).Ensures (calm moment) (fun _ _ => True) Finished s := by
  by_cases hc : e.complete = true
  · rw [resumeEnrollment, if_pos hc]
    exact ⟨e, rfl, hc, h⟩
  · rw [resumeEnrollment, if_neg hc]
    refine (logInToResume_calm hk h).bind ?_ ?_
    · rintro s' out ⟨hauth, hsettled, hout | ⟨next, hout, hm⟩⟩
      · obtain rfl := Except.ok.inj hout
        exact runRemaining_calm ⟨hsettled, hauth⟩ hnow hmoment
      · obtain rfl := Except.ok.inj hout
        refine Ensures.seq (ensures_save trivial ?_ ?_ ?_)
        · intro last hs
          obtain ⟨-, rfl⟩ := Prod.mk.inj hs
          exact runRemaining_calm ⟨⟨rfl, hm⟩, hauth⟩ hnow hmoment
        · intro x last hs
          obtain ⟨hr, -⟩ := Prod.mk.inj hs
          simp at hr
        · intro x last hs
          obtain ⟨hr, -⟩ := Prod.mk.inj hs
          simp at hr
    · rintro s' x ⟨-, -, hout | ⟨next, hout, -⟩⟩
      · simp at hout
      · simp at hout

theorem fromSharedSecret_ok {secret : Bytes} (h : secret.length = sharedSecretLength) :
    ∃ keys, LinkKeys.fromSharedSecret secret = .ok keys := by
  simp only [LinkKeys.fromSharedSecret, dif_pos h]
  exact ⟨_, rfl⟩

theorem handle_exchangeKeyPubM {lock : FakeLock prim} {phone lockPair : KeyPair} {secret : Bytes}
    {keys : LinkKeys} {ref : Nat} (hlen : phone.publicKey.length = publicKeyLength)
    (hlock : keyPairFromPrivateKey prim lock.linkPrivateKey = .ok lockPair)
    (hsecret : ecdhReversed prim lock.linkPrivateKey phone.publicKey = .ok secret)
    (hkeys : LinkKeys.fromSharedSecret secret = .ok keys) :
    lock.handle .new ⟨.exchangeKeyPubM, ref, phone.publicKey, 0⟩ = .ok (lock, ⟨some keys.iv, none, false⟩,
      ⟨CommandId.exchangeKeyPubM.value, ref, statusSuccess, lockPair.publicKey⟩) := by
  simp [FakeLock.handle, FakeLock.openCommands, FakeLock.onExchangeKeyPubM, readBytes_all hlen, publicKeyOf,
    hlock, hsecret, hkeys, answer, FakeTransport.new]

theorem handle_deviceModelGet {lock : FakeLock prim} {transport : FakeTransport} {ref : Nat} :
    lock.handle transport ⟨deviceModelGet.commandId, ref, deviceModelGet.data, 0⟩ =
      .ok (lock, transport, ⟨CommandId.deviceModelGet.value, ref, statusSuccess, [lock.model]⟩) := by
  simp [FakeLock.handle, FakeLock.openCommands, FakeLock.onDeviceModelGet, deviceModelGet, answer]

theorem keyed_of_connected (laws : EcdhLaws prim) (hc : Connected s) : s.Keyed := by
  obtain ⟨phone, hphone, hconnect⟩ := hc
  obtain ⟨lockPair, hlockPair⟩ := s.lock.linkPrivateKey_valid
  obtain ⟨secret, hsecret, hours, htheirs⟩ := laws.agree hphone hlockPair
  obtain ⟨keys, hkeys⟩ := fromSharedSecret_ok hsecret
  have hlen := keyPairFromPrivateKey_publicKey_length hphone
  have hcommand : exchangeKeyPubM phone.publicKey = .ok ⟨.exchangeKeyPubM, phone.publicKey⟩ := by
    simp [exchangeKeyPubM, checkLength, require, hlen]
  have hparse : ∀ ref, parseExchangeKeyPubL ⟨CommandId.exchangeKeyPubM.value, ref, statusSuccess, lockPair.publicKey⟩ =
      .ok lockPair.publicKey :=
    fun ref => parseBytes_answer .exchangeKeyPubM ref (keyPairFromPrivateKey_publicKey_length hlockPair)
  have hderive : deriveLinkKeys prim phone.privateKey lockPair.publicKey = .ok keys := by
    simp only [deriveLinkKeys, hours, ok_bind, hkeys, validated_ok]
  simp only [FakeLock.connect, bind_eq_ok] at hconnect
  obtain ⟨firmware, -, hconnect⟩ := hconnect
  by_cases hold : firmware.lt minFirmwareConnect = true
  · simp [hold] at hconnect
  · simp only [hold, hcommand, validated_ok, ok_bind, CommandPayload.withRef,
      handle_exchangeKeyPubM hlen hlockPair htheirs hkeys, checkAnswer_success, liftBle_ok, hparse, hderive,
      Bool.false_eq_true, if_false, pure_eq_ok] at hconnect
    by_cases hadmin : firmware.lt minFirmwareAdmin = true
    · simp only [hadmin, if_true, Except.ok.injEq, Prod.mk.injEq] at hconnect
      rw [Keyed, ← hconnect.1, ← hconnect.2]
    · simp only [hadmin, Bool.false_eq_true, if_false, handle_deviceModelGet, ok_bind, bind_eq_ok, Except.ok.injEq,
        Prod.mk.injEq] at hconnect
      obtain ⟨response, -, model, -, htransport, hsession⟩ := hconnect
      rw [Keyed, ← htransport, ← hsession]

end Scene

/-- After any interruptions, an undisturbed resume completes the enrollment
that was saved last. -/
theorem resume_completes (laws : EcdhLaws prim) {s next : Scene prim} {e : Enrollment prim}
    {now : Option DateTime} {moment : UtcNow} (h : Interrupted s) (hsaved : s.saved = some e)
    (hlock : next.lock = s.lock) (hkept : next.saved = s.saved) (hc : Connected next)
    (hnow : ∀ given ∈ now, given.Acceptable) (hmoment : moment.val.Acceptable) :
    ∃ final after, (resumeEnrollment e now).eval (Scene.faultless moment) next = (.ok final, after) ∧
      final.complete = true ∧ after.saved = some final ∧ after.lock.ownerKey = final.ownerKey ∧
      after.lock.deviceId = final.deviceId ∧
      ∃ key, final.serverPublicKey = .ok key ∧ after.lock.serverPublicKey = some key := by
  have hsettled : next.Settled e := ⟨hkept.trans hsaved, hlock ▸ interrupted_agrees laws h e hsaved⟩
  have hrun := Scene.resumeEnrollment_calm (Scene.keyed_of_connected laws hc) hsettled hnow hmoment
  have hends : Scene.Finished ((resumeEnrollment e now).eval (Scene.faultless moment) next).2
      ((resumeEnrollment e now).eval (Scene.faultless moment) next).1 := hrun.eval (fun s op => rfl)
  obtain ⟨final, hout, hcomplete, hs, hm⟩ := hends
  have hall : ∀ step, step ∈ final.completed := by
    intro step
    have hx := List.all_eq_true.mp hcomplete step (EnrollmentStep.mem_all step)
    simpa using hx
  exact ⟨final, _, Prod.ext hout rfl, hcomplete, hs, hm.ownerKey, hm.deviceId (hall _), hm.serverKey (hall _)⟩

/-! On a lock whose scalars are all 1, the answer to DeviceIdSet is lost. -/

theorem scalarOne_laws : EcdhLaws Primitives.scalarOne where
  onCurve _ _ := rfl
  coordinates _ _ := ⟨show generator.1 < 2 ^ 256 by decide, show generator.2 < 2 ^ 256 by decide⟩
  commutes _ _ _ _ := rfl

theorem scalarOne_valid : ∃ pair, keyPairFromPrivateKey Primitives.scalarOne (1 :: List.replicate 31 0) = .ok pair :=
  ⟨keyPair Primitives.scalarOne 1, by decide +kernel⟩

def benchLock : FakeLock Primitives.scalarOne where
  firmware := [52, 46, 56, 46, 48]
  model := 33
  ownerKey := defaultEncryptionKey
  deviceId := defaultDeviceId
  name := ""
  clock := none
  serverPublicKey := none
  linkPrivateKey := 1 :: List.replicate 31 0
  updatePrivateKey := 1 :: List.replicate 31 0
  serverPrivateKey := 1 :: List.replicate 31 0
  challenge := List.replicate 16 0xC0
  linkPrivateKey_valid := scalarOne_valid
  updatePrivateKey_valid := scalarOne_valid
  serverPrivateKey_valid := scalarOne_valid
  challenge_length := rfl

def benchPhone : KeyPair := keyPair Primitives.scalarOne 1

def benchClock : UtcNow := newYearUtc

def benchArguments : EnrollArguments := ⟨"Front", some [1, 2, 3, 4, 5, 6], some (1 :: List.replicate 31 0), none⟩

/-- Every command is answered but DeviceIdSet, which the lock carries out. -/
def losingDeviceId (s : Scene Primitives.scalarOne) (op : EnrollmentOp Primitives.scalarOne) :
    EnrollmentReply Primitives.scalarOne op × Scene Primitives.scalarOne :=
  match op with
  | .send command => s.send command (if command.commandId = .deviceIdSet then .lost .cancelled else .answered)
  | .keyPairFactory => (.ok benchPhone, s)
  | op => s.faultless benchClock op

theorem losingDeviceId_faulty (s : Scene Primitives.scalarOne) (op : EnrollmentOp Primitives.scalarOne) :
    Scene.faulty s op (losingDeviceId s op).1 (losingDeviceId s op).2 := by
  cases op with
  | send command => exact ⟨_, rfl⟩
  | linkKeys => exact ⟨rfl, rfl⟩
  | save e => exact ⟨rfl, rfl⟩
  | newDeviceId => exact rfl
  | keyPairFactory =>
    refine ⟨?_, rfl⟩
    rintro pair ⟨⟩
    decide +kernel
  | now => exact rfl

def benchLink : FakeTransport × Linked :=
  match benchLock.connect benchPhone with
  | .ok link => link
  | .error _ => (.new, ⟨minFirmwareConnect, none, zeroLinkKeys, ⟨true, 1⟩⟩)

/-- The enrollment, interrupted by the loss. -/
def benchEnrolled : Scene Primitives.scalarOne :=
  ((enroll benchArguments).eval losingDeviceId ⟨benchLock, benchLink.1, benchLink.2, none⟩).2

theorem connected_bench (lock : FakeLock Primitives.scalarOne) (h : (lock.connect benchPhone).isOk = true)
    (saved : Option (Enrollment Primitives.scalarOne)) :
    ∃ s : Scene Primitives.scalarOne, s.lock = lock ∧ s.saved = saved ∧ Connected s := by
  cases hc : lock.connect benchPhone with
  | error x => simp [hc, Except.isOk, Except.toBool] at h
  | ok link => exact ⟨⟨lock, link.1, link.2, saved⟩, rfl, rfl, benchPhone, by decide +kernel, hc⟩

theorem benchEnrolled_interrupted : Interrupted benchEnrolled := by
  have hlink : benchLock.connect benchPhone = .ok benchLink := by
    have hok : (benchLock.connect benchPhone).isOk = true := by decide +kernel
    unfold benchLink
    cases hc : benchLock.connect benchPhone with
    | error x => simp [hc, Except.isOk, Except.toBool] at hok
    | ok link => rfl
  have hrun : Steps Scene.faulty ⟨benchLock, benchLink.1, benchLink.2, none⟩ (enroll benchArguments) benchEnrolled
      (ended ((enroll benchArguments).eval losingDeviceId ⟨benchLock, benchLink.1, benchLink.2, none⟩).1) :=
    steps_eval losingDeviceId_faulty _ _
  exact .enroll ⟨rfl, rfl⟩ ⟨benchPhone, by decide +kernel, hlink⟩ rfl hrun (by decide +kernel)

theorem resume_completes_lostAnswer : ∃ (s next : Scene Primitives.scalarOne) (e : Enrollment Primitives.scalarOne),
    Interrupted s ∧ s.saved = some e ∧ .deviceId ∉ e.completed ∧ s.lock.deviceId = e.deviceId ∧
      ∃ final after, (resumeEnrollment e none).eval (Scene.faultless benchClock) next = (.ok final, after) ∧
        final.complete = true ∧ after.saved = some final ∧ after.lock.ownerKey = final.ownerKey ∧
        after.lock.deviceId = final.deviceId ∧
        ∃ key, final.serverPublicKey = .ok key ∧ after.lock.serverPublicKey = some key := by
  have hstate : benchEnrolled.saved.any (fun e =>
      decide (.deviceId ∉ e.completed ∧ benchEnrolled.lock.deviceId = e.deviceId)) = true := by
    decide +kernel
  obtain ⟨e, hsaved, he⟩ := (Option.any_eq_true _ _).mp hstate
  simp only [decide_eq_true_eq] at he
  obtain ⟨next, hlock, hkept, hconnected⟩ :=
    connected_bench benchEnrolled.lock (by decide +kernel) benchEnrolled.saved
  exact ⟨benchEnrolled, next, e, benchEnrolled_interrupted, hsaved, he.1, he.2,
    resume_completes scalarOne_laws benchEnrolled_interrupted hsaved hlock hkept hconnected (by simp)
      ⟨0, by decide, rfl, by decide⟩⟩

end OnestiLock
