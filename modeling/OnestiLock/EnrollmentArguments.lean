import OnestiLock.EnrollmentRules

/-! Which arguments `enroll` refuses before it touches the lock, and which it
lets through to the steps that refuse them. -/

namespace OnestiLock

open Program

variable {prim : Primitives} {arguments : EnrollArguments}

/-- What a run has done so far: sent a command, had its UserAuthUpdate
answered, had a call raise. -/
structure Watched where
  sent : Bool := false
  updated : Bool := false
  raised : Bool := false

def Watched.next (w : Watched) : (op : EnrollmentOp prim) → EnrollmentReply prim op → Watched
  | .send command, reply =>
    { sent := true
      updated := w.updated || (command.commandId == .userAuthUpdate && reply.isOk)
      raised := w.raised || !reply.isOk }
  | .linkKeys, reply => { w with raised := w.raised || !reply.isOk }
  | .save _, reply => { w with raised := w.raised || !reply.isOk }
  | .keyPairFactory, reply => { w with raised := w.raised || !reply.isOk }
  | .newDeviceId, _ => w
  | .now, _ => w

/-- The surroundings answer anything. -/
def watching : Surroundings (EnrollmentOp prim) (EnrollmentReply prim) Watched :=
  fun w op reply after => after = w.next op reply

/-- Some step would be refused for an argument. -/
def Refusable (prim : Primitives) (arguments : EnrollArguments) : Prop :=
  BadArguments prim arguments ∨ ∃ moment ∈ arguments.now, ∃ x, clockCommand moment = .error x

/-- Every run ends in a `BleValidationError` without a command. -/
def RefusedUpFront (prim : Primitives) (arguments : EnrollArguments) : Prop :=
  ∀ w p, Steps watching {} (enroll arguments : EnrollmentProgram prim (Enrollment prim)) w p →
    (∀ command next, p ≠ .call (.send command) next) ∧ (∀ e, p ≠ .done e) ∧
      ∀ x, p = .fail x → ∃ v, x = .plain (.ble (.validation v))

/-- An exception that is a refusal of an argument. The clock step refuses one
only when the caller gave the time. -/
def EnrollmentExn.RefusesArgument (arguments : EnrollArguments) : EnrollmentExn prim → Prop
  | .plain (.ble (.validation _)) => True
  | .plain (.other _) => True
  | .stopped step (some _) (.validation _) => step = .clock → arguments.now.isSome = true
  | _ => False

/-- Past UserAuthUpdate, no run ends in a refusal of its own. -/
def NeverStopsForArgument (prim : Primitives) (arguments : EnrollArguments) : Prop :=
  ∀ w x, Steps watching {} (enroll arguments : EnrollmentProgram prim (Enrollment prim)) w (.fail x) →
    w.updated = true → w.raised = false → ¬ x.RefusesArgument arguments

def RefusesBeforeSending (prim : Primitives) (arguments : EnrollArguments) : Prop :=
  (Refusable prim arguments → RefusedUpFront prim arguments) ∧ NeverStopsForArgument prim arguments

/-! Bad arguments never reach the first login. -/

theorem prepare_bad {σ : Type} {env : Surroundings (EnrollmentOp prim) (EnrollmentReply prim) σ} {s : σ}
    (h : BadArguments prim arguments) :
    (prepare arguments : EnrollmentProgram prim (Bytes × Bytes)).Ensures env
      (fun _ op => ∀ command, op ≠ .send command)
      (fun _ out => ∃ v, out = .error (.plain (.ble (.validation v)))) s := by
  have hdevice : ∀ (f : Bytes → EnrollmentProgram prim (Bytes × Bytes)),
      (∀ s d, (∀ given ∈ arguments.deviceId, d = given) → (f d).Ensures env
        (fun _ op => ∀ command, op ≠ .send command)
        (fun _ out => ∃ v, out = .error (.plain (.ble (.validation v)))) s) →
      (arguments.deviceId.elim newDeviceId pure >>= f).Ensures env
        (fun _ op => ∀ command, op ≠ .send command)
        (fun _ out => ∃ v, out = .error (.plain (.ble (.validation v)))) s := by
    intro f hf
    cases hid : arguments.deviceId with
    | some given => exact hf s given (by simp [hid])
    | none => exact ⟨by simp, fun r s' _ => hf s' r.val (by simp [hid])⟩
  cases hname : deviceNameSet arguments.name with
  | error v =>
    simp only [prepare, hname]
    exact ⟨v, rfl⟩
  | ok command =>
    simp only [prepare, hname]
    refine hdevice _ (fun s d hd => ?_)
    cases hc : checkDeviceId d with
    | error v => exact ⟨v, rfl⟩
    | ok u =>
      rcases h with ⟨v, hv⟩ | ⟨given, hg, v, hv⟩ | ⟨given, hg, v, hv⟩
      · simp [hname] at hv
      · rw [← hd given hg, hc] at hv
        simp at hv
      · rw [Option.mem_def.mp hg]
        show (raising (validated (keyPairFromPrivateKey prim given)) >>= fun _ =>
          (pure (d, given) : EnrollmentProgram prim (Bytes × Bytes))).Ensures env _ _ s
        rw [hv]
        exact ⟨v, rfl⟩

theorem refusedUpFront_of_bad (h : BadArguments prim arguments) : RefusedUpFront prim arguments := by
  intro w p hs
  have hends : (enroll arguments : EnrollmentProgram prim (Enrollment prim)).Ensures watching
      (fun _ op => ∀ command, op ≠ .send command)
      (fun _ out => ∃ v, out = .error (.plain (.ble (.validation v)))) {} := by
    refine (prepare_bad h).bind ?_ ?_
    · rintro s a ⟨v, hv⟩
      simp at hv
    · rintro s e ⟨v, hv⟩
      exact ⟨v, by simpa using hv⟩
  have hp := hends.of_steps hs
  cases p with
  | done e =>
    obtain ⟨v, hv⟩ := hp
    simp at hv
  | fail x =>
    obtain ⟨v, hv⟩ := hp
    refine ⟨by simp, by simp, ?_⟩
    rintro _ ⟨⟩
    exact ⟨v, by simpa using hv⟩
  | call op next =>
    refine ⟨?_, by simp, by simp⟩
    rintro command _ ⟨⟩
    exact hp.1 command rfl

/-! With a time the clock takes, no later step refuses an argument. -/

theorem bind_eq_error {ε α β : Type} {x : Except ε α} {f : α → Except ε β} {e : ε} :
    (x >>= f) = .error e ↔ x = .error e ∨ ∃ a, x = .ok a ∧ f a = .error e := by
  cases x <;> simp

theorem parseBytes_error {command : CommandId} {count : Nat} {r : Response} {b : BleError}
    (h : parseBytes command count r = .error b) (v : BleValidationError) : b ≠ .validation v := by
  have hreader : ∀ expected, responseReader r expected = .error b → b ≠ .validation v := by
    intro expected hr
    by_cases hid : r.responseId = expected
    · by_cases hok : r.ok = true
      · simp [responseReader, hid, Response.raiseForStatus, hok] at hr
      · have hstatus : r.status ≠ statusSuccess := by simpa [Response.ok] using hok
        simp only [responseReader, hid, Response.raiseForStatus, hok, errorForStatus, hstatus] at hr
        rintro rfl
        simp at hr
    · simp only [responseReader, hid, ne_eq, not_false_eq_true, if_true, throw_eq_error, error_bind,
        Except.error.injEq] at hr
      subst hr
      simp
  simp only [parseBytes, bind_eq_error] at h
  rcases h with h | ⟨reader, -, h⟩
  · exact hreader _ h
  · cases hread : readBytes count reader with
    | error e =>
      simp [hread, liftProtocol] at h
      subst h
      simp
    | ok p => simp [hread, liftProtocol] at h

theorem login_watching {w : Watched} {credential : OwnerCredential} (h : w.updated = false) :
    (authenticateOwner credential : EnrollmentProgram prim Unit).Ensures watching (fun _ _ => True)
      (fun after _ => after.updated = false) w := by
  refine ensures_authenticateOwner (B := fun w : Watched => w.updated = false) (fun _ => trivial) ?_ ?_
    (fun _ _ hb => hb) (fun _ _ => trivial) ?_ (fun _ _ _ _ => trivial) ?_ ?_
  · rintro user r begun rfl
    simpa [Watched.next] using h
  · rintro user x begun rfl
    simpa [Watched.next] using h
  · rintro begun keys keyed hb rfl
    simpa [Watched.next] using hb
  · rintro begun c r last hb hid rfl
    show (Watched.next _ _ _).updated = false
    simp [Watched.next, hid, hb]
  · rintro begun c x last hb hid rfl
    simp [Watched.next, hid, hb]

theorem computeSharedSecret_error {privateKey peerKey : Bytes} {x : Exn}
    (h : computeSharedSecret prim privateKey peerKey = .error x) : ∃ b, x = .ble b := by
  simp only [computeSharedSecret, bind_eq_error] at h
  rcases h with h | ⟨scalar, -, h | ⟨point, -, h⟩⟩
  · cases hl : loadPrivateKey prim privateKey with
    | ok a => simp [hl] at h
    | error v =>
      simp only [hl, validated_error, Except.error.injEq] at h
      exact ⟨_, h.symm⟩
  · cases hl : loadPublicKey prim peerKey with
    | ok a => simp [hl] at h
    | error v =>
      simp only [hl, parsed_error, Except.error.injEq] at h
      exact ⟨_, h.symm⟩
  · simp at h

theorem ownerKey_watching (arguments : EnrollArguments) {w : Watched} {pair : KeyPair} :
    (catchBle (updateOwnerKey pair) (fun b => .fail (.stopped .ownerKey none b)) :
      EnrollmentProgram prim (Bytes × Bytes)).Ensures watching (fun _ _ => True) (fun after out =>
        match out with
        | .ok p => p.1.length = publicKeyLength ∧ deriveOwnerKey prim pair.privateKey p.1 = .ok p.2
        | .error x => after.raised = true ∨ ¬ x.RefusesArgument arguments) w := by
  have hinner : (updateOwnerKey pair : EnrollmentProgram prim (Bytes × Bytes)).Ensures watching
      (fun _ _ => True) (fun after out =>
        match out with
        | .ok p => p.1.length = publicKeyLength ∧ deriveOwnerKey prim pair.privateKey p.1 = .ok p.2
        | .error x => ∃ y, x = .plain y ∧ (after.raised = true ∨ ∃ b, y = .ble b)) w := by
    refine Ensures.seq (ensures_request ?_ (fun _ _ => trivial) ?_ ?_ ?_)
    · intro v _
      exact ⟨_, rfl, .inr ⟨_, rfl⟩⟩
    · rintro c r after lockKey _ rfl hparse
      refine Ensures.seq (ensures_raising ?_ ?_)
      · intro ownerKey howner
        exact ⟨parseBytes_length hparse, howner⟩
      · intro x hx
        simp only [deriveOwnerKey, bind_eq_error, pure_eq_ok, reduceCtorEq, and_false, exists_false,
          or_false] at hx
        exact ⟨x, rfl, .inr (computeSharedSecret_error hx)⟩
    · intro c r after b _ _ _
      exact ⟨_, rfl, .inr ⟨b, rfl⟩⟩
    · rintro c x after _ rfl
      exact ⟨x, rfl, .inl (by simp [Watched.next, Except.isOk, Except.toBool])⟩
  refine ensures_catchBle hinner (fun s a h => h) ?_ ?_
  · rintro after b -
    exact .inr (by simp [EnrollmentExn.RefusesArgument])
  · rintro after x ⟨y, rfl, hraised | ⟨b, rfl⟩⟩ hne
    · exact .inl hraised
    · exact absurd rfl (hne b)

theorem toLockTime_utc {moment : DateTime} {x : Exn} (h : ∃ within, moment.zone = .offset 0 within)
    (hx : toLockTime moment = .error x) : ∃ v, x = .ble (.validation v) := by
  obtain ⟨hwithin, hz⟩ := h
  simp only [toLockTime, hz] at hx
  split_ifs at hx
  exact ⟨_, (Except.error.inj hx).symm⟩

theorem runRemaining_watching {w : Watched} {e : Enrollment prim}
    (hnow : ∀ moment ∈ arguments.now, moment.Acceptable) :
    (runRemaining e arguments.now).Ensures watching (fun _ _ => True) (fun after out =>
      ∀ x, out = .error x → after.raised = true ∨ ¬ x.RefusesArgument arguments) w := by
  refine ensures_runRemaining (J := fun _ _ => True) (K := fun _ _ _ => True) ?_ ?_ (by simp) trivial
  · intro step e w hne _
    refine ensures_runStep hne ?_ trivial ?_ (fun _ _ => trivial) (fun _ _ _ _ _ _ _ => trivial) ?_ ?_
    · intro s r s' hs
      exact hs
    · intro moment x hclock hgiven hutc hx y hy
      right
      cases hn : arguments.now with
      | some given =>
        have hm := hnow given hn
        rw [← hgiven given hn] at hm
        obtain ⟨time, ht⟩ := toLockTime_acceptable hm
        simp [ht] at hx
      | none =>
        obtain ⟨fresh, -, -, rfl⟩ := hutc hn
        obtain ⟨v, rfl⟩ := toLockTime_utc fresh.property hx
        obtain rfl := Except.error.inj hy
        simp [stopping, EnrollmentExn.RefusesArgument, hclock, hn]
    · rintro command response s' b _ rfl hserver hparse y hy
      right
      obtain rfl := Except.error.inj hy
      have hb := parseBytes_error hparse
      cases b with
      | validation v => exact absurd rfl (hb v)
      | _ => simp [stopping, EnrollmentExn.RefusesArgument]
    · rintro command x s' _ rfl y hy
      exact .inl (by simp [Watched.next, Except.isOk, Except.toBool])
  · intro step e w _
    refine ensures_save trivial (fun _ _ => trivial) ?_ ?_
    · rintro x s' rfl hx y hy
      exact .inl (by simp [Watched.next, Except.isOk, Except.toBool])
    · rintro x s' rfl hx y hy
      exact .inl (by simp [Watched.next, Except.isOk, Except.toBool])

theorem neverStops_of_acceptable (hnow : ∀ moment ∈ arguments.now, moment.Acceptable) :
    NeverStopsForArgument prim arguments := by
  have h : (enroll arguments : EnrollmentProgram prim (Enrollment prim)).Ensures watching (fun _ _ => True)
      (fun after out => ∀ x, out = .error x →
        after.updated = false ∨ after.raised = true ∨ ¬ x.RefusesArgument arguments) {} := by
    refine (ensures_prepare (P := fun w : Watched => w.updated = false) rfl ?_ ?_ (fun _ _ => trivial)
      (fun _ _ => trivial)).bind ?_ ?_
    · rintro w r w' hw rfl
      exact hw
    · rintro w r w' hw rfl
      exact hw
    · rintro w ⟨deviceId, serverPrivateKey⟩ ⟨hw, hprepared⟩
      refine (login_watching hw).bind ?_ (fun _ _ hw _ _ => .inl hw)
      intro w _ hw
      refine Ensures.seq (ensures_keyPairFactory trivial ?_ ?_)
      · intro pair w' _
        refine (ownerKey_watching arguments).bind ?_ ?_
        · rintro after ⟨lockKey, ownerKey⟩ ⟨hlen, howner⟩
          have hv := hprepared.valid hlen howner
          refine Ensures.seq (ensures_ofFields hv (fun e _ => ?_))
          refine Ensures.seq (ensures_save trivial ?_ ?_ ?_)
          · intro s' _
            refine (runRemaining_watching hnow).mono ?_
            intro s out hout x hx
            exact .inr (hout x hx)
          · rintro x s' rfl _ y _
            exact .inr (.inl (by simp [Watched.next, Except.isOk, Except.toBool]))
          · rintro x s' rfl _ y _
            exact .inr (.inl (by simp [Watched.next, Except.isOk, Except.toBool]))
        · intro after x hx y hy
          obtain rfl := Except.error.inj hy
          exact .inr hx
      · rintro x w' rfl y _
        exact .inl hw
    · rintro w x ⟨hw, -⟩ y _
      exact .inl hw
  intro w x hs hupdated hraised
  rcases h.of_steps hs x rfl with hf | hr | hx
  · simp [hf] at hupdated
  · simp [hr] at hraised
  · exact hx

/-! A time the clock refuses is only refused at the clock step. -/

theorem prepare_reaches (hscalar : ∃ key pair, keyPairFromPrivateKey prim key = .ok pair)
    (hbad : ¬ BadArguments prim arguments) (w : Watched) : ∃ after p,
    Steps watching w (prepare arguments : EnrollmentProgram prim (Bytes × Bytes)) after (.done p) := by
  have hdevice : ∃ after d, Steps watching w
      (arguments.deviceId.elim newDeviceId pure : EnrollmentProgram prim Bytes) after (.done d) ∧
        checkDeviceId d = .ok () := by
    cases hid : arguments.deviceId with
    | some given =>
      refine ⟨w, given, .refl _ _, ?_⟩
      by_contra hc
      cases hg : checkDeviceId given with
      | ok u => exact hc hg
      | error v => exact hbad (.inr (.inl ⟨given, hid, v, hg⟩))
    | none =>
      have hfresh : checkDeviceId [0, 0, 0, 0, 0, 1] = .ok () := by decide
      exact ⟨_, _, .call (r := ⟨_, hfresh⟩) rfl (.refl _ _), hfresh⟩
  have hserver : ∀ w, ∃ after k, Steps watching w
      (arguments.serverPrivateKey.elim (KeyPair.privateKey <$> keyPairFactory) pure :
        EnrollmentProgram prim Bytes) after (.done k) ∧ ∃ pair, keyPairFromPrivateKey prim k = .ok pair := by
    intro w
    cases hkey : arguments.serverPrivateKey with
    | some given =>
      refine ⟨w, given, .refl _ _, ?_⟩
      cases hg : keyPairFromPrivateKey prim given with
      | ok pair => exact ⟨pair, rfl⟩
      | error v => exact absurd (.inr (.inr ⟨given, hkey, v, hg⟩)) hbad
    | none =>
      obtain ⟨key, pair, hp⟩ := hscalar
      exact ⟨_, key, .call (r := .ok ⟨key, pair.publicKey⟩) rfl (.refl _ _), pair, hp⟩
  obtain ⟨w', d, hd, hchecked⟩ := hdevice
  obtain ⟨after, k, hk, pair, hpair⟩ := hserver w'
  cases hname : deviceNameSet arguments.name with
  | error v => exact absurd (.inl ⟨v, hname⟩) hbad
  | ok command =>
    refine ⟨after, (d, k), ?_⟩
    simp only [prepare, hname]
    refine (hd.bind _).trans ?_
    simp only [hchecked]
    refine (hk.bind _).trans ?_
    simp only [hpair]
    exact .refl _ _

theorem enroll_reaches_login (hscalar : ∃ key pair, keyPairFromPrivateKey prim key = .ok pair)
    (hbad : ¬ BadArguments prim arguments) : ∃ w command next,
    Steps watching {} (enroll arguments : EnrollmentProgram prim (Enrollment prim)) w
      (.call (.send command) next) := by
  obtain ⟨w, ⟨deviceId, serverPrivateKey⟩, hp⟩ := prepare_reaches hscalar hbad {}
  obtain ⟨user, -, hbegin⟩ := userAuthBegin_ok defaultOwnerCredential
  have hreach : ∃ rest, Steps watching {} (enroll arguments : EnrollmentProgram prim (Enrollment prim)) w
      (authenticateOwner defaultOwnerCredential >>= rest) := ⟨_, hp.bind _⟩
  obtain ⟨rest, hrest⟩ := hreach
  simp only [authenticateOwner, hbegin] at hrest
  exact ⟨w, _, _, hrest⟩

theorem neverStops_of_bad (hbad : BadArguments prim arguments) : NeverStopsForArgument prim arguments := by
  have h : (enroll arguments : EnrollmentProgram prim (Enrollment prim)).Ensures watching (fun _ _ => True)
      (fun after _ => after.updated = false) {} := by
    refine (ensures_prepare (P := fun w : Watched => w.updated = false) rfl ?_ ?_ (fun _ _ => trivial)
      (fun _ _ => trivial)).bind ?_ ?_
    · rintro w r w' hw rfl
      exact hw
    · rintro w r w' hw rfl
      exact hw
    · rintro w p ⟨-, hprepared⟩
      exact absurd hbad hprepared.not_bad
    · exact fun w x hx => hx.1
  intro w x hs hupdated
  have hf : w.updated = false := h.of_steps hs
  simp [hf] at hupdated

/-- Whatever a later step would refuse of the arguments is refused before anything is
sent, if and only if a name, device id or server key is refused itself, or the time
given, if any, is one the clock takes. -/
theorem enroll_refuses_iff (hscalar : ∃ key pair, keyPairFromPrivateKey prim key = .ok pair) :
    RefusesBeforeSending prim arguments ↔
      BadArguments prim arguments ∨ ∀ moment ∈ arguments.now, moment.Acceptable := by
  constructor
  · rintro ⟨hup, -⟩
    by_contra hcond
    rw [not_or] at hcond
    obtain ⟨hbad, hnow⟩ := hcond
    obtain ⟨moment, hm, hna⟩ : ∃ moment ∈ arguments.now, ¬ moment.Acceptable := by
      simpa only [not_forall, exists_prop] using hnow
    have hrefused : ∃ x, clockCommand moment = .error x := by
      cases hc : clockCommand moment with
      | ok command => exact absurd (clockCommand_ok_iff.mp ⟨command, hc⟩) hna
      | error x => exact ⟨x, rfl⟩
    obtain ⟨w, command, next, hs⟩ := enroll_reaches_login hscalar hbad
    exact (hup (.inr ⟨moment, hm, hrefused⟩) w _ hs).1 command next rfl
  · rintro (hbad | hnow)
    · exact ⟨fun _ => refusedUpFront_of_bad hbad, neverStops_of_bad hbad⟩
    · refine ⟨?_, neverStops_of_acceptable hnow⟩
      rintro (hbad | ⟨moment, hm, x, hx⟩)
      · exact refusedUpFront_of_bad hbad
      · obtain ⟨command, hc⟩ := clockCommand_ok_iff.mpr (hnow moment hm)
        simp [hc] at hx

/-! A time without a zone, 2026-01-01 00:00, on a lock that takes every command. -/

def zoneless : EnrollArguments where
  name := "Front"
  deviceId := some [1, 2, 3, 4, 5, 6]
  serverPrivateKey := some (1 :: List.replicate 31 0)
  now := some ⟨newYear, .naive, newYear_lt⟩

def takingAll (w : Watched) (op : EnrollmentOp Primitives.scalarOne) :
    EnrollmentReply Primitives.scalarOne op × Watched :=
  let reply : EnrollmentReply Primitives.scalarOne op :=
    match op with
    | .send ⟨.userAuthBegin, _⟩ => .ok ⟨CommandId.userAuthBegin.value, 1, 0, List.replicate 16 0⟩
    | .send ⟨.userAuthUpdate, _⟩ => .ok ⟨CommandId.userAuthUpdate.value, 1, 0, encodePublicKey generator⟩
    | .send ⟨.serverKeyUpdate, _⟩ => .ok ⟨CommandId.serverKeyUpdate.value, 1, 0, encodePublicKey generator⟩
    | .send command => .ok ⟨command.commandId.value, 1, 0, []⟩
    | .linkKeys => .ok zeroLinkKeys
    | .save _ => .ok ()
    | .newDeviceId => firstDeviceId
    | .keyPairFactory => .ok (keyPair Primitives.scalarOne 1)
    | .now => newYearUtc
  (reply, w.next op reply)

def stopsAtClock : Except (EnrollmentExn Primitives.scalarOne) (Enrollment Primitives.scalarOne) × Watched → Bool
  | (.error (.stopped .clock (some _) (.validation _)), w) => w.updated && !w.raised
  | _ => false

theorem zoneless_not_refused : ¬ RefusesBeforeSending Primitives.scalarOne zoneless := by
  rintro ⟨-, hnever⟩
  have hstops : stopsAtClock ((enroll zoneless).eval takingAll {}) = true := by decide +kernel
  have hrun : Steps watching {} (enroll zoneless) ((enroll zoneless).eval takingAll {}).2
      (ended ((enroll zoneless).eval takingAll {}).1) := steps_eval (fun w op => rfl) _ _
  generalize (enroll zoneless).eval takingAll {} = out at hstops hrun
  unfold stopsAtClock at hstops
  split at hstops
  · rename_i e v w
    simp only [Bool.and_eq_true, Bool.not_eq_true'] at hstops
    exact hnever w _ hrun hstops.1 hstops.2 (by simp [EnrollmentExn.RefusesArgument, zoneless])
  · simp at hstops

theorem enroll_refuses_iff_zoneless :
    (∃ key pair, keyPairFromPrivateKey Primitives.scalarOne key = .ok pair) ∧
      (RefusesBeforeSending Primitives.scalarOne zoneless ↔
        BadArguments Primitives.scalarOne zoneless ∨ ∀ moment ∈ zoneless.now, moment.Acceptable) := by
  have hscalar : ∃ key pair, keyPairFromPrivateKey Primitives.scalarOne key = .ok pair :=
    ⟨1 :: List.replicate 31 0, keyPair Primitives.scalarOne 1, by decide +kernel⟩
  exact ⟨hscalar, enroll_refuses_iff hscalar⟩

end OnestiLock
