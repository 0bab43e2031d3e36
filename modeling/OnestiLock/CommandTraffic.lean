import OnestiLock.WriteTraffic

/-! Which commands each command of the tool may send at all. -/

namespace OnestiLock.Cli

open Python Json Program

variable {prim : Primitives} {α : Type} {tool : Tool} {address : Argument} {ids : List CommandId}

/-- No other command is sent. -/
def Sends (ids : List CommandId) : ToolOp prim → Prop
  | .send command => command.commandId ∈ ids
  | _ => True

/-- No other command is sent by the library. -/
def Asks (ids : List CommandId) : EnrollmentOp prim → Prop
  | .send command => command.commandId ∈ ids
  | _ => True

theorem sends_of_unsent {op : ToolOp prim} (h : Unsent op) : Sends ids op := by
  cases op with
  | send command => exact absurd h id
  | _ => trivial

theorem sends_unsent {p : ToolProgram prim α} (h : p.Calls Unsent) : p.Calls (Sends ids) :=
  h.mono fun _ => sends_of_unsent

theorem sends_quiet {p : ToolProgram prim α} (h : p.Calls Quiet) : p.Calls (Sends ids) :=
  h.mono fun _ hop => sends_of_unsent (unsent_of_quiet hop)

theorem sends_calm {p : ToolProgram prim α} (h : p.Calls Calm) : p.Calls (Sends ids) :=
  h.mono fun _ hop => sends_of_unsent (unsent_of_calm hop)

theorem sends_recording {place : Text} {p : ToolProgram prim α} (h : p.Calls (Recording place)) :
    p.Calls (Sends ids) :=
  h.mono fun _ hop => sends_of_unsent (unsent_of_recording hop)

theorem sends_say (line : Line) : (say line : ToolProgram prim Unit).Calls (Sends ids) :=
  sends_quiet (quiet_say line)

/-! What the library asks for. -/

theorem asks_of_sendsOnly {some : List CommandId} (hsub : ∀ id ∈ some, id ∈ ids) {op : EnrollmentOp prim}
    (h : SendsOnly some op) : Asks ids op := by
  cases op with
  | send command => exact hsub _ h
  | _ => trivial

theorem asks_save (step : EnrollmentStep) (e : Enrollment prim) : (save step e).Calls (Asks ids) := by
  refine ⟨trivial, fun saved => ?_⟩
  cases saved <;> trivial

theorem sends_carry (last : Option (Enrollment prim)) (op : EnrollmentOp prim) (h : Asks ids op) :
    (carry tool address last op).Calls (Sends ids) := by
  cases op with
  | send command => exact ⟨h, fun _ => trivial⟩
  | save e => exact sends_unsent (unsent_saver last e)
  | _ => exact ⟨trivial, fun _ => trivial⟩

theorem asks_runRemaining (e : Enrollment prim) (now : Option DateTime) (hsub : ∀ id ∈ stepCommands, id ∈ ids) :
    (runRemaining e now).Calls (Asks ids) := by
  unfold runRemaining
  generalize e.remaining = steps
  induction steps generalizing e with
  | nil => trivial
  | cons step steps ih =>
    have hstep : (runStep e now step).Calls (Asks ids) :=
      (calls_runStep e now step).mono fun _ => asks_of_sendsOnly hsub
    have hcaught : (catchBle (runStep e now step) (fun b => .fail (.stopped step (some e) b))).Calls (Asks ids) := by
      refine hstep.tryCatch (fun x => ?_)
      cases x with
      | plain x => cases x <;> trivial
      | _ => trivial
    exact hcaught.bind fun next => (asks_save step next).bind fun _ => ih next

/-- All that `enroll` sends. -/
def enrollCommands : List CommandId := loginCommands ++ .userAuthUpdate :: stepCommands

theorem asks_authenticateOwner (credential : OwnerCredential) (hsub : ∀ id ∈ loginCommands, id ∈ ids) :
    (authenticateOwner credential : EnrollmentProgram prim Unit).Calls (Asks ids) :=
  (calls_authenticateOwner credential).mono fun _ => asks_of_sendsOnly hsub

theorem asks_enroll (arguments : EnrollArguments) :
    (enroll arguments : EnrollmentProgram prim (Enrollment prim)).Calls (Asks enrollCommands) := by
  have hsteps : ∀ id ∈ stepCommands, id ∈ enrollCommands := by decide
  have hraising : ∀ {β : Type} (x : Except Exn β), (raising x : EnrollmentProgram prim β).Calls (Asks enrollCommands) :=
    fun x => by cases x <;> trivial
  refine ((calls_prepare arguments).mono fun _ => asks_of_sendsOnly (by decide)).bind (fun prepared => ?_)
  refine (asks_authenticateOwner _ (by decide)).bind (fun _ => ?_)
  have hpair : (keyPairFactory : EnrollmentProgram prim KeyPair).Calls (Asks enrollCommands) :=
    ⟨trivial, fun r => hraising r⟩
  refine hpair.bind (fun pair => ?_)
  have hcaught : (catchBle (updateOwnerKey pair) (fun b => .fail (.stopped .ownerKey none b)) :
      EnrollmentProgram prim (Bytes × Bytes)).Calls (SendsOnly [.userAuthUpdate]) :=
    calls_catchBle (calls_updateOwnerKey pair) (fun _ => trivial)
  have hupdate : ∀ id ∈ [CommandId.userAuthUpdate], id ∈ enrollCommands := by decide
  refine (hcaught.mono fun _ => asks_of_sendsOnly hupdate).bind (fun keys => (hraising _).bind (fun e => ?_))
  exact (asks_save .ownerKey e).bind (fun _ => asks_runRemaining e arguments.now hsteps)

theorem asks_raisedIn {p : EnrollmentProgram prim α} (h : p.Calls (Asks ids)) (context : Option Exn) :
    (raisedIn context p).Calls (Asks ids) :=
  h.both fun out => by cases out <;> trivial

theorem asks_resumeRaising (e : Enrollment prim) (now : Option DateTime) :
    (resumeRaising e now).Calls (Asks enrollCommands) := by
  have hlogin : ∀ credential, (authenticateOwner credential : EnrollmentProgram prim Unit).Calls (Asks enrollCommands) :=
    fun credential => asks_authenticateOwner credential (by decide)
  have hsteps : ∀ id ∈ stepCommands, id ∈ enrollCommands := by decide
  have hlogged : (logInRaising e).Calls (Asks enrollCommands) := by
    refine (hlogin _).both (fun out => ?_)
    cases out with
    | ok u => trivial
    | error x =>
      cases x with
      | plain x =>
        cases x with
        | ble b =>
          dsimp only
          split_ifs
          · trivial
          · trivial
          · exact asks_raisedIn ((calls_second e).mono fun _ => asks_of_sendsOnly (by decide)) _
        | _ => trivial
      | _ => trivial
  unfold resumeRaising
  split_ifs
  · trivial
  · refine hlogged.bind (fun loggedIn => asks_raisedIn ?_ none)
    cases loggedIn with
    | none => exact asks_runRemaining e now hsteps
    | some loggedIn => exact (asks_save .deviceId loggedIn).bind fun _ => asks_runRemaining loggedIn now hsteps

/-! What the commands send. -/

theorem sends_openSession {place : Text} {body : List Text → ToolProgram prim α}
    (h : ∀ description, (body description).Calls (Sends ids)) : (openSession place body).Calls (Sends ids) := by
  have hopen : (.call .openTransport cliRaising : ToolProgram prim Text).Calls (Sends ids) :=
    ⟨trivial, fun r => by cases r <;> trivial⟩
  have hconnect : (.call .connectSession exnRaising : ToolProgram prim (List Text)).Calls (Sends ids) :=
    ⟨trivial, fun r => by cases r <;> trivial⟩
  have hclose : (.call .closeSession exnRaising : ToolProgram prim Unit).Calls (Sends ids) :=
    ⟨trivial, fun r => by cases r <;> trivial⟩
  refine (sends_say _).bind (fun _ => hopen.bind (fun mtu => (sends_say _).bind (fun _ => ?_)))
  refine (hconnect.bind h).both (fun out => hclose.bind (fun _ => ?_))
  cases out <;> trivial

theorem sends_logIn (login : Login prim) (hsub : ∀ id ∈ loginCommands, id ∈ ids) :
    (logIn tool address login).Calls (Sends ids) := by
  refine (sends_say _).bind (fun _ => ?_)
  refine (asks_authenticateOwner _ hsub).host (fun last op hop => sends_carry last op hop) (fun last out => ?_) none
  have hrecords : ∀ (b : BleError) (e : CliExn),
      (recordLoginFailures address login.kind b none >>= fun _ => .fail e : ToolProgram prim Unit).Calls (Sends ids) :=
    fun b e => (sends_recording (calls_recordLoginFailures _ _ _ _)).bind fun _ => trivial
  cases out with
  | ok u =>
    refine (sends_say _).bind (fun _ => ?_)
    cases login.stored with
    | none => trivial
    | some stored => exact sends_unsent (unsent_setAddress stored)
  | error x =>
    cases x with
    | plain x =>
      cases x with
      | ble b => cases b <;> exact hrecords _ _
      | _ => trivial
    | _ => trivial

theorem sends_sendOutside {payload : CommandPayload} (h : payload.commandId ∈ ids) :
    (sendOutside payload : ToolProgram prim (Except Exn Response)).Calls (Sends ids) := by
  unfold sendOutside
  split_ifs
  · trivial
  · trivial
  · exact ⟨h, fun _ => trivial⟩

theorem sends_unavailable (payload : CommandPayload) :
    (.call (.unavailable payload) exnRaising : ToolProgram prim (Option Text)).Calls (Sends ids) :=
  ⟨trivial, fun r => by cases r <;> trivial⟩

theorem sends_readAll (shown : CommandId → Response → BleResult Text) (failed : Bool)
    {items : List (String × CommandPayload)} (h : ∀ item ∈ items, item.2.commandId ∈ ids) :
    (readAll shown failed items : ToolProgram prim Bool).Calls (Sends ids) := by
  induction items generalizing failed with
  | nil => trivial
  | cons item rest ih =>
    obtain ⟨name, payload⟩ := item
    have hrest : ∀ failed, (readAll shown failed rest : ToolProgram prim Bool).Calls (Sends ids) :=
      fun failed => ih failed (fun item hitem => h item (List.mem_cons_of_mem _ hitem))
    refine (sends_unavailable payload).bind (fun feature => ?_)
    cases feature with
    | some feature => exact (sends_say _).bind (fun _ => hrest failed)
    | none =>
      refine (sends_sendOutside (h _ List.mem_cons_self)).bind (fun reply => ?_)
      cases reply with
      | ok response =>
        dsimp only
        cases shown payload.commandId response with
        | ok result => exact (sends_say _).bind (fun _ => hrest failed)
        | error b => trivial
      | error x =>
        cases x with
        | ble b =>
          cases b with
          | operation status command => exact (sends_say _).bind (fun _ => hrest true)
          | timeout message cause => exact (sends_say _).bind (fun _ => trivial)
          | _ => trivial
        | _ => trivial

theorem sends_writeInSession (args : LoginArgs) (login : Login prim) (write : Write) (description : List Text)
    (hsub : ∀ id ∈ loginCommands, id ∈ ids) (h : write.payload.commandId ∈ ids) :
    (writeInSession tool args login write description).Calls (Sends ids) := by
  have hsayAll : ∀ lines : List Text, (sayAll lines : ToolProgram prim Unit).Calls (Sends ids) :=
    fun lines => sends_quiet (quiet_sayAll lines)
  refine (hsayAll description).bind (fun _ => (sends_unavailable _).bind (fun feature => ?_))
  cases feature with
  | some feature => trivial
  | none =>
    refine (sends_logIn login hsub).bind (fun _ => (hsayAll _).bind (fun _ => (sends_say _).bind (fun _ => ?_)))
    refine (sends_sendOutside h).bind (fun reply => ?_)
    cases reply with
    | error x =>
      cases x with
      | ble b =>
        cases b with
        | operation status command => exact (sends_say _).bind (fun _ => trivial)
        | _ => trivial
      | _ => trivial
    | ok response =>
      refine (sends_say _).bind (fun _ => ?_)
      cases write.parse with
      | none => trivial
      | some parse =>
        dsimp only
        cases parse response with
        | ok result => exact (sends_say _).bind (fun _ => trivial)
        | error b => trivial

theorem sends_handle (kind : LoginKind) (refusal : String → String) (last : Option (Enrollment prim))
    (out : Except (Raised prim) (Enrollment prim)) : (handle tool address kind refusal last out).Calls (Sends ids) := by
  have htry : ∀ e, (trySave tool e address : ToolProgram prim (Except IoFault Text)).Calls (Sends ids) :=
    fun e => ⟨trivial, fun _ => ⟨trivial, fun _ => trivial⟩⟩
  have hnote : ∀ n : EnrollNote prim, (note n).Calls (Sends ids) := fun n => ⟨trivial, fun _ => trivial⟩
  have hmap : ∀ {p : ToolProgram prim Nat}, p.Calls (Sends ids) →
      (Sum.inl <$> p : ToolProgram prim (Nat ⊕ Enrollment prim)).Calls (Sends ids) := fun h => h.bind fun _ => trivial
  cases out with
  | ok e => trivial
  | error raised =>
    obtain ⟨exn, context⟩ := raised
    cases exn with
    | notSaved step e reason =>
      refine hmap ((sends_say _).bind fun _ => (sends_say _).bind fun _ => (htry e).bind fun saved => ?_)
      cases saved with
      | ok path => exact (hnote _).bind fun _ => (sends_say _).bind fun _ => (sends_say _).bind fun _ => trivial
      | error fault =>
        cases fault with
        | os strerror => exact (hnote _).bind fun _ => (sends_say _).bind fun _ => trivial
        | raised x => trivial
    | stopped step enrollment reason =>
      cases enrollment with
      | none => exact hmap (sends_calm (calls_enrollmentKeyless step reason))
      | some e =>
        have hsave : (saveState tool e address : ToolProgram prim Text).Calls (Sends ids) :=
          (htry e).bind fun written => by cases written <;> trivial
        refine hmap (hsave.bind fun path => (hnote _).bind fun _ => (sends_say _).bind fun _ => ?_)
        exact (sends_say _).bind fun _ => (sends_say _).bind fun _ => sends_calm (calls_finishWith _ _)
    | plain x =>
      cases x with
      | ble b =>
        cases b with
        | operation status command => exact (sends_recording (calls_recordLoginFailures _ _ _ _)).bind fun _ => trivial
        | _ => trivial
      | cancelled =>
        refine Calls.bind (p := enrollmentInterrupted tool address last) ((hnote _).bind fun _ => ?_) fun _ => trivial
        cases last with
        | none => exact sends_say _
        | some e => exact (sends_say _).bind fun _ => sends_say _
      | other name => trivial

/-! The commands of the tool. -/

theorem sends_resolved {args : LoginArgs} {place : Text} {forceLogin : Bool} {next : Login prim → ToolProgram prim Nat}
    (h : ∀ login, (next login).Calls (Sends ids)) :
    (resolveLogin tool args >>= fun login => checkLoginBudget tool place forceLogin >>= fun _ => next login).Calls
      (Sends ids) :=
  (sends_quiet (quiet_resolveLogin args)).bind fun login => (sends_quiet (quiet_checkLoginBudget _ _)).bind fun _ =>
    h login

theorem sends_enroll (args : EnrollArgs) : (cmdEnroll tool args : ToolProgram prim Nat).Calls (Sends enrollCommands) := by
  have hbudget : (checkLoginBudget tool args.address args.forceLogin : ToolProgram prim Unit).Calls
      (Sends enrollCommands) := sends_quiet (quiet_checkLoginBudget _ _)
  have hnote : ∀ n : EnrollNote prim, (note n).Calls (Sends enrollCommands) := fun n => ⟨trivial, fun _ => trivial⟩
  have hsayAll : ∀ lines : List Text, (sayAll lines : ToolProgram prim Unit).Calls (Sends enrollCommands) :=
    fun lines => sends_quiet (quiet_sayAll lines)
  have hwritable : (checkWritable tool : ToolProgram prim Unit).Calls (Sends enrollCommands) :=
    sends_calm (calls_checkWritable tool)
  unfold cmdEnroll
  split_ifs
  · refine (sends_calm (calls_findStored tool args)).bind (fun stored => ?_)
    unfold resumeStored
    split_ifs
    · exact (sends_say _).bind fun _ => trivial
    · refine (sends_calm (calls_confirm _ _ _ _)).bind (fun yes => ?_)
      cases yes with
      | false => trivial
      | true =>
        refine hwritable.bind (fun _ => hbudget.bind (fun _ => ?_))
        refine Calls.bind (sends_openSession fun description => ?_) fun out => sends_calm (calls_finished tool _ out)
        refine (hsayAll description).bind (fun _ => (hnote _).bind (fun _ => ?_))
        exact (asks_resumeRaising stored.enrollment none).host (fun last op hop => sends_carry last op hop)
          (fun last out => sends_handle _ _ last out) _
  · unfold enrollAnew
    cases args.name with
    | none => trivial
    | some name =>
      have hvalid : (validatedCli (deviceNameSet (nameOf name)) : ToolProgram prim CommandPayload).Calls
          (Sends enrollCommands) := by
        unfold validatedCli
        split <;> trivial
      refine hvalid.bind (fun _ => (sends_calm (calls_findByAddress tool _)).bind (fun found => ?_))
      cases found with
      | cons existing rest => trivial
      | nil =>
        refine (sends_calm (calls_confirm _ _ _ _)).bind (fun yes => ?_)
        cases yes with
        | false => trivial
        | true =>
          have hlisten : (.call .findAdvertisement exnRaising : ToolProgram prim (Option Seed)).Calls
              (Sends enrollCommands) := ⟨trivial, fun r => by cases r <;> trivial⟩
          refine (sends_say _).bind (fun _ => hwritable.bind (fun _ => (sends_say _).bind (fun _ => ?_)))
          refine hlisten.bind (fun found => ?_)
          cases found with
          | none => trivial
          | some seed =>
            dsimp only
            split_ifs
            · trivial
            · refine (sends_say _).bind (fun _ => hbudget.bind (fun _ => ?_))
              refine Calls.bind (sends_openSession fun description => ?_) fun out =>
                sends_calm (calls_finished tool _ out)
              refine (hsayAll description).bind (fun _ => (hnote _).bind (fun _ => ?_))
              exact (asks_enroll _).host (fun last op hop => sends_carry last op hop)
                (fun last out => sends_handle _ _ last _) _

namespace Command

/-- What a command may send. -/
def sends : Command → List CommandId
  | login _ => loginCommands
  | read _ _ => loginCommands ++ reads.map (fun item => item.2.commandId)
  | write _ w => loginCommands ++ [w.payload.commandId]
  | enroll _ => enrollCommands

theorem run_sends (command : Command) : (command.run tool : ToolProgram prim Nat).Calls (Sends command.sends) := by
  have hsayAll : ∀ (ids : List CommandId) (lines : List Text),
      (sayAll lines : ToolProgram prim Unit).Calls (Sends ids) := fun _ lines => sends_quiet (quiet_sayAll lines)
  cases command with
  | login args =>
    refine sends_resolved (fun login => Calls.bind (sends_openSession fun description => ?_) fun _ => trivial)
    exact (hsayAll _ description).bind fun _ => sends_logIn login (fun _ h => h)
  | read args shown =>
    refine sends_resolved (fun login => Calls.bind (sends_openSession fun description => ?_) fun _ => trivial)
    refine (hsayAll _ description).bind fun _ => (sends_logIn login fun _ h => List.mem_append_left _ h).bind fun _ => ?_
    exact sends_readAll shown false fun item h => List.mem_append_right _ (List.mem_map_of_mem h)
  | write args w =>
    refine (sends_quiet (quiet_resolveLogin args)).bind fun login => (sends_calm (calls_confirm _ _ _ _)).bind fun yes => ?_
    cases yes with
    | false => trivial
    | true =>
      refine (sends_quiet (quiet_checkLoginBudget _ _)).bind fun _ => sends_openSession fun description => ?_
      exact sends_writeInSession args login w description (fun _ h => List.mem_append_left _ h) (by simp [sends])
  | enroll args => exact sends_enroll args

theorem sends_only (command : Command) {id : CommandId} (h : id ∈ command.sends) : id ∈ command.sends ∧
    id ≠ .factoryResetModule ∧ (id ∈ enrollmentOnlyCommands → ∃ args, command = .enroll args) ∧
    (id ∈ writeCommands → ∃ args w, command = .write args w ∧ id = w.payload.commandId) := by
  have hlogin : ∀ id ∈ loginCommands, id ≠ .factoryResetModule ∧ id ∉ enrollmentOnlyCommands ∧ id ∉ writeCommands := by
    decide
  have hreads : ∀ id ∈ reads.map (fun item => item.2.commandId),
      id ≠ .factoryResetModule ∧ id ∉ enrollmentOnlyCommands ∧ id ∉ writeCommands := by decide
  have hwrites : ∀ id ∈ writeCommands, id ≠ .factoryResetModule ∧ id ∉ enrollmentOnlyCommands := by decide
  have henroll : ∀ id ∈ enrollCommands, id ≠ .factoryResetModule ∧ id ∉ writeCommands := by decide
  refine ⟨h, ?_⟩
  cases command with
  | login args =>
    obtain ⟨hreset, honly, hwrite⟩ := hlogin id h
    exact ⟨hreset, fun hin => absurd hin honly, fun hin => absurd hin hwrite⟩
  | read args shown =>
    have hneither : id ≠ .factoryResetModule ∧ id ∉ enrollmentOnlyCommands ∧ id ∉ writeCommands :=
      (List.mem_append.mp h).elim (hlogin id) (hreads id)
    exact ⟨hneither.1, fun hin => absurd hin hneither.2.1, fun hin => absurd hin hneither.2.2⟩
  | write args w =>
    rcases List.mem_append.mp h with hid | hid
    · obtain ⟨hreset, honly, hwrite⟩ := hlogin id hid
      exact ⟨hreset, fun hin => absurd hin honly, fun hin => absurd hin hwrite⟩
    · obtain rfl : id = w.payload.commandId := List.mem_singleton.mp hid
      obtain ⟨hreset, honly⟩ := hwrites _ w.listed
      exact ⟨hreset, fun hin => absurd hin honly, fun _ => ⟨args, w, rfl, rfl⟩⟩
  | enroll args =>
    obtain ⟨hreset, hwrite⟩ := henroll id h
    exact ⟨hreset, fun _ => ⟨args, rfl⟩, fun hin => absurd hin hwrite⟩

/-- In every run, finished or not, a command sends only what is its own: none
resets the module, only an enrollment changes whose lock it is, and `login` and
`read` change nothing. -/
theorem run_sent {command : Command} {t : Traffic} {q : ToolProgram prim Nat}
    (hs : Steps listening .start (command.run tool) t q) : ∀ s ∈ t.sent, s.1.commandId ∈ command.sends ∧
      s.1.commandId ≠ .factoryResetModule ∧
      (s.1.commandId ∈ enrollmentOnlyCommands → ∃ args, command = .enroll args) ∧
      (s.1.commandId ∈ writeCommands → ∃ args w, command = .write args w ∧ s.1.commandId = w.payload.commandId) := by
  have hstep : ∀ t (op : ToolOp prim) reply after, (∀ s ∈ t.sent, s.1.commandId ∈ command.sends) →
      Sends command.sends op → listening t op reply after → ∀ s ∈ after.sent, s.1.commandId ∈ command.sends := by
    intro t op reply after ht hop hr
    obtain rfl : after = t.next op reply := hr
    cases op with
    | send c =>
      intro s hsent
      rcases List.mem_append.mp hsent with hold | hnew
      · exact ht s hold
      · rw [List.mem_singleton.mp hnew]
        exact hop
    | say line =>
      cases line with
      | plain line =>
        cases reply with
        | error fault => exact ht
        | ok u =>
          show ∀ s ∈ (ite _ _ _ : Traffic).sent, _
          split_ifs <;> exact ht
      | _ => exact ht
    | _ => exact ht
  have hstart : ∀ s ∈ Traffic.start.sent, s.1.commandId ∈ command.sends := fun _ h => by cases h
  have hkept : (command.run tool : ToolProgram prim Nat).Ensures listening
      (fun t _ => ∀ s ∈ t.sent, s.1.commandId ∈ command.sends)
      (fun t _ => ∀ s ∈ t.sent, s.1.commandId ∈ command.sends) .start :=
    (run_sends command).ensures (fun _ _ h _ => h) hstep hstart
  intro s hsent
  exact command.sends_only (hkept.holds_of_steps hs s hsent)

/-- A login with the factory credential. -/
theorem run_sent_login : ∃ t : Traffic, t.sent.map (fun s => s.1.commandId) = [.userAuthBegin, .userAuthFinalize] ∧
    ∀ s ∈ t.sent, s.1.commandId ∈ sends (.login WriteCommand.unlockArgs.toLoginArgs) := by
  have hrun : Steps listening .start ((login WriteCommand.unlockArgs.toLoginArgs).run frontDoorTool)
      (((login WriteCommand.unlockArgs.toLoginArgs).run frontDoorTool).eval WriteCommand.listened .start).2
      (ended (((login WriteCommand.unlockArgs.toLoginArgs).run frontDoorTool).eval WriteCommand.listened .start).1) :=
    steps_eval (fun _ _ => rfl) _ _
  exact ⟨_, rfl, fun s hs => (run_sent hrun s hs).1⟩

end Command

end OnestiLock.Cli
