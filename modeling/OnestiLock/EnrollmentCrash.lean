import OnestiLock.FakeLockRules

/-! What was saved last agrees with the lock at every point of an interrupted
enrollment, whatever the lock did that nobody confirmed. -/

namespace OnestiLock

open Program

variable {prim : Primitives}

/-- The enrollment agrees with the lock. Its device id may be on the lock
before anybody confirmed it. -/
structure Matches (e : Enrollment prim) (lock : FakeLock prim) : Prop where
  user : e.userId = defaultAdminUserId
  ownerKey : lock.ownerKey = e.ownerKey
  deviceId : .deviceId ∈ e.completed → lock.deviceId = e.deviceId
  held : lock.deviceId = defaultDeviceId ∨ lock.deviceId = e.deviceId
  serverKey : .serverKey ∈ e.completed →
    ∃ key, e.serverPublicKey = .ok key ∧ lock.serverPublicKey = some key

theorem Matches.confirmed {e next : Enrollment prim} {step : EnrollmentStep} {response : Response}
    {lock : FakeLock prim} (h : Matches e lock) (hn : Confirmed e step response next)
    (hd : step = .deviceId → lock.deviceId = e.deviceId)
    (hk : step = .serverKey → ∃ key, e.serverPublicKey = .ok key ∧ lock.serverPublicKey = some key) :
    Matches next lock := by
  obtain ⟨hdevice, howner, huser, hserver⟩ := hn.kept
  have hmem : ∀ x, x ∈ next.completed → x = step ∨ x ∈ e.completed := by
    intro x hx
    rwa [hn.completed, Finset.mem_insert] at hx
  refine ⟨huser.trans h.user, h.ownerKey.trans howner.symm, ?_, ?_, ?_⟩
  · intro hx
    rw [hdevice]
    rcases hmem _ hx with he | he
    · exact hd he.symm
    · exact h.deviceId he
  · rw [hdevice]
    exact h.held
  · intro hx
    rw [hserver]
    rcases hmem _ hx with he | he
    · exact hk he.symm
    · exact h.serverKey he

/-- A step's command leaves the lock agreeing with the enrollment, and with
the next one if the lock answers well. -/
theorem Matches.deliver {e : Enrollment prim} {step : EnrollmentStep} {s : Scene prim}
    {command : CommandPayload} {lock : FakeLock prim} {transport : FakeTransport} {response : Response}
    (hm : Matches e s.lock) (hstep : step ≠ .ownerKey) (hc : StepCommand e step command)
    (h : s.deliver command = .ok (lock, transport, response)) :
    Matches e lock ∧ (response.status = statusSuccess → ∀ next, Confirmed e step response next →
      Matches next lock) := by
  have hid := hc.commandId
  have hclosed : command.commandId ∉ FakeLock.openCommands := by
    rw [hid]
    cases step <;> decide
  have hrefused : (lock = s.lock ∧ transport = s.transport ∧ response.status = statusSecurityError) →
      Matches e lock ∧ (response.status = statusSuccess → ∀ next, Confirmed e step response next →
        Matches next lock) := by
    rintro ⟨rfl, -, hstatus⟩
    refine ⟨hm, fun hs => ?_⟩
    rw [hs] at hstatus
    exact absurd hstatus (by decide)
  cases step with
  | ownerKey => exact absurd rfl hstep
  | deviceId =>
    refine (Scene.deliver_closed FakeLock.onDeviceIdSet hclosed ?_ h).elim hrefused ?_
    · intro received hr ha
      simp [FakeLock.handle, hr, hid, EnrollmentStep.commandId, ha]
    · rintro ⟨ref, hh⟩
      obtain rfl := Except.ok.inj ((deviceIdSet_ok e.valid.deviceId.1).symm.trans hc)
      have hread : readBytes deviceIdLength e.deviceId = .ok (e.deviceId, []) := readBytes_all e.valid.deviceId.1
      simp only [FakeLock.onDeviceIdSet, CommandPayload.withRef, hread, parsed_ok, ok_bind, pure_eq_ok,
        Except.ok.injEq, Prod.mk.injEq] at hh
      obtain ⟨rfl, -, -⟩ := hh
      have hm' : Matches e { s.lock with deviceId := e.deviceId } :=
        ⟨hm.user, hm.ownerKey, fun _ => rfl, .inr rfl, hm.serverKey⟩
      exact ⟨hm', fun _ next hn => hm'.confirmed hn (fun _ => rfl) (by simp)⟩
  | clock =>
    refine (Scene.deliver_closed FakeLock.onCurrentTimeSet hclosed ?_ h).elim hrefused ?_
    · intro received hr ha
      simp [FakeLock.handle, hr, hid, EnrollmentStep.commandId, ha]
    · rintro ⟨ref, hh⟩
      simp only [FakeLock.onCurrentTimeSet, bind_eq_ok, pure_eq_ok, Except.ok.injEq, Prod.mk.injEq] at hh
      obtain ⟨clock, -, rfl, -, -⟩ := hh
      have hm' : Matches e { s.lock with clock := some clock.1 } :=
        ⟨hm.user, hm.ownerKey, hm.deviceId, hm.held, hm.serverKey⟩
      exact ⟨hm', fun _ next hn => hm'.confirmed hn (by simp) (by simp)⟩
  | serverKey =>
    refine (Scene.deliver_closed FakeLock.onServerKeyUpdate hclosed ?_ h).elim hrefused ?_
    · intro received hr ha
      simp [FakeLock.handle, hr, hid, EnrollmentStep.commandId, ha]
    · rintro ⟨ref, hh⟩
      obtain ⟨key, hkey, hcommand⟩ := hc
      obtain ⟨key', hkey', hlen⟩ := e.serverPublicKey_ok
      obtain rfl := Except.ok.inj (hkey'.symm.trans hkey)
      obtain rfl := Except.ok.inj ((serverKeyUpdate_ok hlen).symm.trans hcommand)
      have hread : readBytes publicKeyLength key' = .ok (key', []) := readBytes_all hlen
      simp only [FakeLock.onServerKeyUpdate, CommandPayload.withRef, hread, parsed_ok, ok_bind, bind_eq_ok,
        pure_eq_ok, Except.ok.injEq, Prod.mk.injEq] at hh
      obtain ⟨lockKey, -, rfl, -, -⟩ := hh
      have hm' : Matches e { s.lock with serverPublicKey := some key' } :=
        ⟨hm.user, hm.ownerKey, hm.deviceId, hm.held, fun _ => ⟨key', hkey', rfl⟩⟩
      exact ⟨hm', fun _ next hn => hm'.confirmed hn (by simp) (fun _ => ⟨key', hkey', rfl⟩)⟩
  | name =>
    refine (Scene.deliver_closed FakeLock.onDeviceNameSet hclosed ?_ h).elim hrefused ?_
    · intro received hr ha
      simp [FakeLock.handle, hr, hid, EnrollmentStep.commandId, ha]
    · rintro ⟨ref, hh⟩
      simp only [FakeLock.onDeviceNameSet, bind_eq_ok, pure_eq_ok, Except.ok.injEq, Prod.mk.injEq] at hh
      obtain ⟨name, -, rfl, -, -⟩ := hh
      have hm' : Matches e { s.lock with name := name.1 } :=
        ⟨hm.user, hm.ownerKey, hm.deviceId, hm.held, hm.serverKey⟩
      exact ⟨hm', fun _ next hn => hm'.confirmed hn (by simp) (by simp)⟩

/-! Interrupted runs. -/

namespace Scene

variable {s s' : Scene prim} {e : Enrollment prim}

/-- What was saved last agrees with the lock. -/
def Agrees (s : Scene prim) : Prop := ∀ e ∈ s.saved, Matches e s.lock

/-- Between the steps. -/
structure Settled (s : Scene prim) (e : Enrollment prim) : Prop where
  saved : s.saved = some e
  agrees : Matches e s.lock

theorem Settled.all (h : s.Settled e) : s.Agrees := by
  intro x hx
  rw [h.saved, Option.mem_some_iff] at hx
  exact hx ▸ h.agrees

theorem Settled.send {step : EnrollmentStep} {command : CommandPayload} {fate : Fate}
    {reply : Except Exn Response} (h : s.Settled e) (hstep : step ≠ .ownerKey) (hc : StepCommand e step command)
    (hs : (reply, s') = s.send command fate) : s'.Settled e ∧
      ∀ response next, reply = .ok response → Confirmed e step response next → Matches next s'.lock := by
  obtain ⟨hsaved, -, ⟨hlock, -, x, hx⟩ | ⟨response, hd, hr⟩⟩ := send_cases hs
  · refine ⟨⟨hsaved.trans h.saved, hlock ▸ h.agrees⟩, ?_⟩
    intro response next he
    simp [hx] at he
  · obtain ⟨hm, hnext⟩ := h.agrees.deliver hstep hc hd
    refine ⟨⟨hsaved.trans h.saved, hm⟩, ?_⟩
    intro r next he hn
    obtain ⟨rfl, hstatus⟩ := hr r he
    exact hnext hstatus next hn

theorem runRemaining_faulty {now : Option DateTime} (h : s.Settled e) :
    (runRemaining e now).Ensures faulty (fun s _ => s.Agrees) (fun s _ => s.Agrees) s := by
  refine ensures_runRemaining (J := fun e s => s.Settled e)
    (K := fun _ next s => (∃ e, s.Settled e) ∧ Matches next s.lock) ?_ ?_ (fun _ _ hj => hj.all) h
  · intro step e s hne hj
    refine ensures_runStep hne (fun _ _ _ hs => hs) hj.all ?_ (fun _ _ => hj.all) ?_ ?_ ?_
    · intro moment x _ _ _ _
      exact hj.all
    · rintro command response s' next hc ⟨fate, hs⟩ hn
      obtain ⟨hsettled, hnext⟩ := hj.send hne hc hs
      exact ⟨⟨e, hsettled⟩, hnext response next rfl hn⟩
    · rintro command response s' b hc ⟨fate, hs⟩ - -
      exact (hj.send hne hc hs).1.all
    · rintro command x s' hc ⟨fate, hs⟩
      exact (hj.send hne hc hs).1.all
  · rintro step next s ⟨⟨e, hsettled⟩, hm⟩
    refine ensures_save hsettled.all ?_ ?_ ?_
    · rintro s' ⟨-, rfl⟩
      exact ⟨rfl, hm⟩
    · rintro x s' ⟨hr, -⟩
      simp at hr
    · rintro x s' ⟨hr, -⟩
      simp at hr

theorem save_runRemaining_faulty {now : Option DateTime} {step : EnrollmentStep} (hs : s.Agrees)
    (hm : Matches e s.lock) : (save step e >>= fun _ => runRemaining e now).Ensures faulty (fun s _ => s.Agrees)
      (fun s _ => s.Agrees) s := by
  refine Ensures.seq (ensures_save hs ?_ ?_ ?_)
  · rintro s' ⟨-, rfl⟩
    exact runRemaining_faulty ⟨rfl, hm⟩
  · rintro x s' ⟨hr, -⟩
    simp at hr
  · rintro x s' ⟨hr, -⟩
    simp at hr

/-! The logins leave the lock alone, and one that went through names the
device id the lock holds. -/

/-- The lock and the saved enrollment are as they were. -/
structure Unchanged (s s' : Scene prim) : Prop where
  lock : s'.lock = s.lock
  saved : s'.saved = s.saved
  keys : s'.session.keys = s.session.keys

theorem Unchanged.agrees (h : s.Unchanged s') (ha : s.Agrees) : s'.Agrees := by
  intro e he
  rw [h.saved] at he
  exact h.lock ▸ ha e he

theorem Unchanged.trans {last : Scene prim} (h : s.Unchanged s') (h' : s'.Unchanged last) : s.Unchanged last :=
  ⟨h'.lock.trans h.lock, h'.saved.trans h.saved, h'.keys.trans h.keys⟩

theorem login_faulty {credential : OwnerCredential} (ha : s.Agrees) :
    (authenticateOwner credential : EnrollmentProgram prim Unit).Ensures faulty (fun s _ => s.Agrees)
      (fun s' out => s.Unchanged s' ∧
        match out with
        | .ok () => s.lock.deviceId = credential.deviceId
        | .error x => ∃ y, x = .plain y) s := by
  have hsend : ∀ user fate reply s', (reply, s') = s.send ⟨.userAuthBegin, user :: credential.deviceId⟩ fate →
      s.Unchanged s' ∧ ∀ r, reply = .ok r →
        ∀ d, s'.transport.begunDeviceId = some d → d = credential.deviceId := by
    intro user fate reply s' hs
    obtain ⟨hsaved, hkeys, ⟨hlock, -, x, hx⟩ | ⟨response, hd, -⟩⟩ := send_cases hs
    · exact ⟨⟨hlock, hsaved, hkeys⟩, by simp [hx]⟩
    · rw [deliver_begin s credential.deviceId_length] at hd
      obtain ⟨hlock, htransport, -⟩ := by simpa only [Except.ok.injEq, Prod.mk.injEq] using hd
      refine ⟨⟨hlock.symm, hsaved, hkeys⟩, ?_⟩
      rintro r - d hd
      rw [← htransport] at hd
      simp only [Option.ite_none_right_eq_some, Option.some.injEq] at hd
      exact hd.2.symm
  refine ensures_authenticateOwner
    (B := fun begun => s.Unchanged begun ∧ ∀ d, begun.transport.begunDeviceId = some d → d = credential.deviceId)
    (fun _ => ha) ?_ ?_ ?_ (fun _ hb => hb.1.agrees ha) ?_ (fun _ _ hb _ => hb.1.agrees ha) ?_ ?_
  · rintro user r begun ⟨fate, hs⟩
    obtain ⟨hu, hbegun⟩ := hsend user fate _ begun hs
    exact ⟨hu, hbegun r rfl⟩
  · rintro user x s' ⟨fate, hs⟩
    exact ⟨(hsend user fate _ s' hs).1, x, rfl⟩
  · rintro begun x ⟨hu, -⟩
    exact ⟨hu, x, rfl⟩
  · rintro begun keys keyed hb ⟨-, rfl⟩
    exact hb
  · rintro begun c r last ⟨hu, hbegun⟩ hid ⟨fate, hs⟩
    obtain ⟨hsaved, hkeys, ⟨-, -, x, hx⟩ | ⟨response, hd, hr⟩⟩ := send_cases hs
    · simp at hx
    · obtain ⟨hlock, hdevice⟩ := deliver_finalize hid hd
      have hin := hbegun _ (hdevice (hr r rfl).2)
      rw [hu.lock] at hin
      exact ⟨hu.trans ⟨hlock, hsaved, hkeys⟩, hin⟩
  · rintro begun c x last ⟨hu, -⟩ hid ⟨fate, hs⟩
    obtain ⟨hsaved, hkeys, ⟨hlock, -, -⟩ | ⟨response, hd, -⟩⟩ := send_cases hs
    · exact ⟨hu.trans ⟨hlock, hsaved, hkeys⟩, x, rfl⟩
    · exact ⟨hu.trans ⟨(deliver_finalize hid hd).1, hsaved, hkeys⟩, x, rfl⟩

theorem Settled.of_unchanged (h : s.Settled e) (hu : s.Unchanged s') : s'.Settled e :=
  ⟨hu.saved.trans h.saved, hu.lock ▸ h.agrees⟩

theorem logInToResume_faulty (h : s.Settled e) :
    (logInToResume e).Ensures faulty (fun s _ => s.Agrees) (fun s' out =>
      s'.Settled e ∧ ∀ next, out = .ok (some next) → Matches next s'.lock) s := by
  refine ensures_logInToResume (J := fun s' => s'.Settled e) ?_ ?_
  · refine (login_faulty h.all).mono ?_
    rintro s' (x | u) ⟨hu, -⟩
    · exact ⟨h.of_unchanged hu, h.of_unchanged hu, by simp⟩
    · exact ⟨h.of_unchanged hu, by simp⟩
  · intro s' hmem hj
    refine (login_faulty hj.all).mono ?_
    rintro last (x | u) ⟨hu, hin⟩
    · exact ⟨hj.of_unchanged hu, by simp⟩
    · intro next hnext
      have hlast := hj.of_unchanged hu
      refine ⟨hlast, ?_⟩
      rintro _ ⟨⟩
      have hconfirmed : Confirmed e .deviceId ⟨0, 0, 0, []⟩ next := hnext
      refine hlast.agrees.confirmed hconfirmed ?_ (by simp)
      intro _
      rw [hu.lock]
      exact hin

theorem resumeEnrollment_faulty {now : Option DateTime} (h : s.Settled e) :
    (resumeEnrollment e now).Ensures faulty (fun s _ => s.Agrees) (fun s _ => s.Agrees) s := by
  by_cases hc : e.complete = true
  · rw [resumeEnrollment, if_pos hc]
    exact h.all
  · rw [resumeEnrollment, if_neg hc]
    refine (logInToResume_faulty h).bind ?_ ?_
    · rintro s' (_ | loggedIn) ⟨hj, hin⟩
      · exact runRemaining_faulty hj
      · exact save_runRemaining_faulty hj.all (hin loggedIn rfl)
    · rintro s' x ⟨hj, -⟩
      exact hj.all

/-! The start of `enroll`, on a factory-fresh lock. -/

/-- Nothing is saved, and the lock holds the factory device id. -/
structure Fresh (s : Scene prim) : Prop where
  saved : s.saved = none
  deviceId : s.lock.deviceId = defaultDeviceId

theorem Fresh.agrees (h : s.Fresh) : s.Agrees := by
  simp [Agrees, h.saved]

theorem Fresh.of_unchanged (h : s.Fresh) (hu : s.Unchanged s') : s'.Fresh :=
  ⟨hu.saved.trans h.saved, hu.lock ▸ h.deviceId⟩

theorem updateOwnerKey_faulty (laws : EcdhLaws prim) {pair : KeyPair} (h : s.Fresh)
    (hpair : keyPairFromPrivateKey prim pair.privateKey = .ok pair) :
    (updateOwnerKey pair : EnrollmentProgram prim (Bytes × Bytes)).Ensures faulty (fun s _ => s.Agrees)
      (fun s' out => s'.Fresh ∧
        match out with
        | .ok p => p.1.length = publicKeyLength ∧ deriveOwnerKey prim pair.privateKey p.1 = .ok p.2 ∧
            s'.lock.ownerKey = p.2
        | .error x => ∃ y, x = .plain y) s := by
  have hfresh : ∀ fate reply s', (reply, s') = s.send ⟨.userAuthUpdate, 0 :: 0 :: pair.publicKey⟩ fate →
      s'.Fresh := by
    intro fate reply s' hs
    obtain ⟨hsaved, -, ⟨hlock, -, -⟩ | ⟨response, hd, -⟩⟩ := send_cases hs
    · exact ⟨hsaved.trans h.saved, hlock ▸ h.deviceId⟩
    · exact ⟨hsaved.trans h.saved, (deliver_update laws hpair hd).1.trans h.deviceId⟩
  rw [updateOwnerKey, userAuthUpdate_ok (keyPairFromPrivateKey_publicKey_length hpair)]
  refine Ensures.seq (ensures_request (by rintro x ⟨⟩) (fun _ _ => h.agrees) ?_ ?_ ?_)
  · rintro c r s' lockKey ⟨⟩ ⟨fate, hs⟩ hparse
    refine Ensures.seq (ensures_raising ?_ (fun x _ => ⟨hfresh fate _ s' hs, x, rfl⟩))
    intro ownerKey howner
    refine ⟨hfresh fate _ s' hs, parseBytes_length hparse, howner, ?_⟩
    obtain ⟨-, -, ⟨-, -, x, hx⟩ | ⟨response, hd, hr⟩⟩ := send_cases hs
    · simp at hx
    · obtain ⟨rfl, hstatus⟩ := hr r rfl
      obtain ⟨ref, key, rfl, hlen, hderive⟩ := (deliver_update laws hpair hd).2 hstatus
      have hread : parseUserAuthUpdate _ = .ok key := parseBytes_answer .userAuthUpdate ref hlen
      rw [← Except.ok.inj (hread.symm.trans hparse), hderive] at howner
      exact Except.ok.inj howner
  · rintro c r s' b ⟨⟩ ⟨fate, hs⟩ _
    exact ⟨hfresh fate _ s' hs, _, rfl⟩
  · rintro c x s' ⟨⟩ ⟨fate, hs⟩
    exact ⟨hfresh fate _ s' hs, x, rfl⟩

theorem caughtOwnerKey_faulty (laws : EcdhLaws prim) {pair : KeyPair} (h : s.Fresh)
    (hpair : keyPairFromPrivateKey prim pair.privateKey = .ok pair) :
    (catchBle (updateOwnerKey pair) (fun b => .fail (.stopped .ownerKey none b)) :
      EnrollmentProgram prim (Bytes × Bytes)).Ensures faulty (fun s _ => s.Agrees)
        (fun s' out => s'.Fresh ∧ ∀ p, out = .ok p → p.1.length = publicKeyLength ∧
          deriveOwnerKey prim pair.privateKey p.1 = .ok p.2 ∧ s'.lock.ownerKey = p.2) s := by
  refine ensures_catchBle (updateOwnerKey_faulty laws h hpair) ?_ ?_ ?_
  · rintro s' p ⟨hf, hp⟩
    refine ⟨hf, ?_⟩
    rintro _ ⟨⟩
    exact hp
  · rintro s' b ⟨hf, -⟩
    exact ⟨hf, by simp⟩
  · rintro s' x ⟨hf, -⟩ -
    exact ⟨hf, by simp⟩

theorem enroll_faulty (laws : EcdhLaws prim) {arguments : EnrollArguments} (h : s.Fresh) :
    (enroll arguments).Ensures faulty (fun s _ => s.Agrees) (fun s _ => s.Agrees) s := by
  refine (ensures_prepare (P := fun s => s.Fresh) h ?_ ?_ (fun s hs => hs.agrees) (fun s hs => hs.agrees)).bind
    ?_ (fun s x hx => hx.1.agrees)
  · rintro s r s' hs rfl
    exact hs
  · rintro s r s' hs ⟨-, rfl⟩
    exact hs
  · rintro s ⟨deviceId, serverPrivateKey⟩ ⟨hs, hprepared⟩
    refine (login_faulty hs.agrees).bind ?_ (fun s' x hx => (hs.of_unchanged hx.1).agrees)
    rintro s' _ ⟨hu, -⟩
    have hs' := hs.of_unchanged hu
    refine Ensures.seq (ensures_keyPairFactory hs'.agrees ?_ ?_)
    · rintro pair s'' ⟨hpair, rfl⟩
      refine (caughtOwnerKey_faulty laws hs' (hpair pair rfl)).bind ?_ (fun s x hx => hx.1.agrees)
      rintro last ⟨lockKey, ownerKey⟩ ⟨hf, hp⟩
      obtain ⟨hlen, howner, hlock⟩ := hp _ rfl
      have hv := hprepared.valid hlen howner
      refine Ensures.seq (ensures_ofFields hv (fun e he => ?_))
      have hcompleted : e.completed = {.ownerKey} := by rw [he, EnrollmentFields.first]
      refine save_runRemaining_faulty hf.agrees
        ⟨by rw [he]; rfl, by rw [he]; exact hlock, ?_, .inl hf.deviceId, ?_⟩
      · simp [hcompleted]
      · simp [hcompleted]
    · rintro x s'' ⟨-, rfl⟩
      exact hs'.agrees

end Scene

theorem interrupted_agrees (laws : EcdhLaws prim) {s : Scene prim} (h : Interrupted s) : s.Agrees := by
  have hends : ∀ {p : EnrollmentProgram prim (Enrollment prim)} {s : Scene prim},
      p.Ensures Scene.faulty (fun s _ => s.Agrees) (fun s _ => s.Agrees) s → s.Agrees := by
    intro p s hp
    cases p with
    | done e => exact hp
    | fail x => exact hp
    | call op next => exact hp.1
  induction h with
  | enroll hf hc hn hs hsaved => exact hends ((Scene.enroll_faulty laws ⟨hn, hf.deviceId⟩).of_steps hs)
  | resume h hsaved hlock hkept hc hs ih =>
    have hsettled : Scene.Settled _ _ := ⟨hkept.trans hsaved, hlock ▸ ih _ hsaved⟩
    exact hends ((Scene.resumeEnrollment_faulty hsettled).of_steps hs)

end OnestiLock
