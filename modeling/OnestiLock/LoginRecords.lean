import OnestiLock.LoginBooks
import OnestiLock.LoginCommand

/-! Which logins the list of failed logins has a line for. -/

namespace OnestiLock.Cli

open Python Json Program

variable {prim : Primitives} {α : Type} {tool : Tool} {address : Argument}

/-! What the commands call besides the logins. -/

theorem unlogged_of_calls {p : ToolProgram prim α} (h : p.Calls Calm) : p.Calls Unlogged :=
  h.mono (fun _ => unlogged_of_calm)

theorem unlogged_say (line : Line) : (say line : ToolProgram prim Unit).Calls Unlogged :=
  ⟨trivial, fun r => by cases r <;> trivial⟩

theorem unlogged_note (n : EnrollNote prim) : (note n : ToolProgram prim Unit).Calls Unlogged :=
  ⟨trivial, fun _ => trivial⟩

theorem unlogged_sayAll (lines : List Text) : (sayAll lines : ToolProgram prim Unit).Calls Unlogged :=
  unlogged_of_calls (calls_sayAll lines)

theorem unlogged_trySave (e : Enrollment prim) : (trySave tool e address).Calls Unlogged :=
  ⟨trivial, fun _ => ⟨trivial, fun _ => trivial⟩⟩

theorem unlogged_saveState (e : Enrollment prim) : (saveState tool e address).Calls Unlogged :=
  (unlogged_trySave e).bind (fun written => by cases written <;> trivial)

theorem unlogged_setAddress (stored : StoredLock prim) : (setAddress tool stored address).Calls Unlogged := by
  unfold setAddress
  split_ifs
  · trivial
  · exact (unlogged_saveState _).bind (fun _ => trivial)

theorem unlogged_finishWith (exitCode : Nat) :
    (say (.finishWith address) >>= fun _ => pure exitCode : ToolProgram prim Nat).Calls Unlogged :=
  unlogged_of_calls (calls_finishWith address exitCode)

theorem unlogged_enrollmentNotSaved (step : EnrollmentStep) (e : Enrollment prim) (reason : Exn) :
    (enrollmentNotSaved tool address step e reason).Calls Unlogged := by
  refine (unlogged_say _).bind (fun _ => (unlogged_say _).bind (fun _ => (unlogged_trySave e).bind (fun saved => ?_)))
  cases saved with
  | ok path =>
    exact (unlogged_note _).bind (fun _ => (unlogged_say _).bind (fun _ => unlogged_finishWith exitFailed))
  | error fault =>
    cases fault with
    | raised x => trivial
    | os strerror => exact (unlogged_note _).bind (fun _ => (unlogged_say _).bind (fun _ => trivial))

theorem unlogged_enrollmentPartial (step : EnrollmentStep) (e : Enrollment prim) (reason : BleError) :
    (enrollmentPartial tool address step e reason).Calls Unlogged := by
  refine (unlogged_saveState e).bind (fun path => (unlogged_note _).bind (fun _ => (unlogged_say _).bind (fun _ => ?_)))
  exact (unlogged_say _).bind (fun _ => (unlogged_say _).bind (fun _ => unlogged_finishWith exitFailed))

theorem unlogged_enrollmentInterrupted (last : Option (Enrollment prim)) :
    (enrollmentInterrupted tool address last).Calls Unlogged := by
  refine (unlogged_note _).bind (fun _ => ?_)
  cases last with
  | none => exact unlogged_say _
  | some e => exact (unlogged_say _).bind (fun _ => unlogged_say _)

/-! The library inside the tool. -/

namespace Book

variable {book : Book} {attempts : List Attempt} {w : World prim}

theorem saver_open (last : Option (Enrollment prim)) (e : Enrollment prim) (hw : book.Open attempts 0 w) :
    Following (saver tool address last e) (fun after out =>
      match out with
      | .ok _ => book.Open attempts 0 after
      | .error _ => False) w := by
  refine ⟨trivial, fun saved first hfirst => ?_⟩
  obtain rfl : first = w := hfirst
  refine ⟨trivial, fun written after hwritten => ?_⟩
  have hafter : book.Open attempts 0 after := hw.books (unlogged_books (by trivial) hwritten).1
  cases written with
  | error fault => exact hafter
  | ok u =>
    refine ⟨trivial, fun _ noted hnoted => ?_⟩
    have hopen : book.Open attempts 0 noted := hafter.books (unlogged_books (by trivial) hnoted).1
    refine ⟨trivial, fun said final hsaid => ?_⟩
    have hfinal : book.Open attempts 0 final := hopen.books (unlogged_books (by trivial) hsaid).1
    cases said with
    | ok u => exact hfinal
    | error fault => cases fault <;> exact hfinal

theorem carry_open (last : Option (Enrollment prim)) (op : EnrollmentOp prim) (hw : book.Open attempts 0 w) :
    Following (carry tool address last op) (fun after out =>
      match out with
      | .ok r => ∃ next, loggingIn attempts op r.1 next ∧ book.Open next 0 after
      | .error _ => False) w := by
  have hsame : ∀ {op : ToolOp prim} {r : ToolReply prim op} {after : World prim}, Unlogged op →
      surroundings w op r after → book.Open attempts 0 after :=
    fun hop hr => hw.books (unlogged_books hop hr).1
  cases op with
  | send command =>
    refine ⟨trivial, fun r after hr => ?_⟩
    obtain ⟨handed, hhanded, rfl⟩ : ∃ handed, (isAnswer r = true → handed = true) ∧
      after = w.answered handed command r := hr
    refine ⟨_, ⟨handed, hhanded, rfl⟩, ?_, hw.failedLogins, hw.recorded, hw.allowed⟩
    exact congrArg (attemptsAfter · handed command r) hw.attempts
  | linkKeys =>
    refine ⟨trivial, fun r after hr => ?_⟩
    obtain rfl : after = w.settled r := hr
    cases r with
    | ok keys => exact ⟨attempts, rfl, hw⟩
    | error x =>
      refine ⟨_, rfl, ?_, hw.failedLogins, hw.recorded, hw.allowed⟩
      exact congrArg (settleLast (.error x)) hw.attempts
  | newDeviceId => exact ⟨trivial, fun r after hr => ⟨attempts, rfl, hsame (by trivial) hr⟩⟩
  | keyPairFactory => exact ⟨trivial, fun pair after hr => ⟨attempts, rfl, hsame (by trivial) hr⟩⟩
  | now => exact ⟨trivial, fun r after hr => ⟨attempts, rfl, hsame (by trivial) hr⟩⟩
  | save e =>
    refine (saver_open last e hw).mono (fun after out hin => ?_)
    cases out with
    | ok r => exact ⟨attempts, rfl, hin⟩
    | error x => exact hin

/-- The library's run is followed to its end, where the tool has to account for
its logins. -/
theorem host_closed {ε : Type} {β : Type} {p : Program (EnrollmentOp prim) (EnrollmentReply prim) ε α}
    {post : List Attempt → Except ε α → Prop}
    {f : Option (Enrollment prim) → Except ε α → ToolProgram prim β} {last : Option (Enrollment prim)}
    (h : p.Ensures loggingIn (fun _ _ => True) post []) (hw : book.Open [] 0 w)
    (hend : ∀ attempts last w out, book.Open attempts 0 w → post attempts out →
      Following (f last out) (fun after _ => book.Closed after) w) :
    Following (p.host (carry tool address) last f) (fun after _ => book.Closed after) w := by
  refine h.host ?_ hend hw
  intro attempts last w op hw _
  refine (carry_open last op hw).mono (fun after out hin => ?_)
  cases out with
  | ok r => exact hin
  | error x => exact absurd hin id

/-! How many lines the logins leave. -/

/-- A line for a login that ended in an error of the library. -/
def loginCounts (attempts : List Attempt) (lines : Nat) : Prop :=
  attempts = [] ∧ lines = 0 ∨ ∃ a, attempts = [a] ∧
    ((∃ b, a.outcome = some (.error (.ble b))) ∧ lines = 1 ∨
      (∀ b, a.outcome ≠ some (.error (.ble b))) ∧ lines = 0)

/-- A line for each login if the last one was refused, and none otherwise. -/
def enrollCounts (attempts : List Attempt) (lines : Nat) : Prop :=
  (∀ a ∈ attempts.getLast?, ¬ a.Refused) ∧ lines = 0 ∨
    attempts ≠ [] ∧ lines = attempts.length ∧ ∀ a ∈ attempts, a.Refused ∧ a.handed = true

theorem loginCounts_nil : loginCounts [] 0 := Or.inl ⟨rfl, rfl⟩

theorem enrollCounts_nil : enrollCounts [] 0 := Or.inl ⟨by simp, rfl⟩

end Book

/-! The sessions. -/

open Book

variable {attempts : List Attempt} {log : FailedLogins} {w : World prim}

theorem checkLoginBudget_closed (book : Book) {rest : Unit → ToolProgram prim α} (hw : book.Before w)
    (hrest : ∀ w, book.Open [] 0 w → Following (rest ()) (fun after _ => book.Closed after) w) :
    Following (checkLoginBudget book.tool book.address book.forceLogin >>= rest)
      (fun after _ => book.Closed after) w :=
  (checkLoginBudget_following hw).bind (fun w _ hin => hrest w hin) (fun _ _ hin => hin)

theorem openSession_closed {book : Book} {place : Text} {body : List Text → ToolProgram prim α}
    (hw : book.Open [] 0 w) (hbody : ∀ description w, book.Open [] 0 w →
      Following (body description) (fun after _ => book.Closed after) w) :
    Following (openSession place body) (fun after _ => book.Closed after) w := by
  have hopen : (.call .openTransport cliRaising : ToolProgram prim Text).Calls Unlogged :=
    ⟨trivial, fun r => unlogged_of_calls (calls_cliRaising r)⟩
  have hconnect : (.call .connectSession exnRaising : ToolProgram prim (List Text)).Calls Unlogged :=
    ⟨trivial, fun r => unlogged_of_calls (calls_exnRaising r)⟩
  have hclose : (.call .closeSession exnRaising : ToolProgram prim Unit).Calls Unlogged :=
    ⟨trivial, fun r => unlogged_of_calls (calls_exnRaising r)⟩
  refine open_bind (unlogged_say _) hw book.nothing (fun _ w hw => open_bind hopen hw book.nothing (fun mtu w hw => ?_))
  refine open_bind (unlogged_say _) hw book.nothing (fun _ w hw => ?_)
  refine (open_bind hconnect hw book.nothing hbody).both (fun after out hin => ?_)
  exact (unlogged_closed hclose hin).bind (fun _ _ hin => by cases out <;> exact hin) (fun _ _ hin => hin)

def loginBook (tool : Tool) (args : LoginArgs) (log : FailedLogins) : Book :=
  ⟨tool, args.address, args.forceLogin, log, loginCounts, loginCounts_nil⟩

def enrollBook (tool : Tool) (args : EnrollArgs) (log : FailedLogins) : Book :=
  ⟨tool, args.address, args.forceLogin, log, enrollCounts, enrollCounts_nil⟩

theorem endLogin_closed {args : LoginArgs} {login : Login prim} {out : Except (EnrollmentExn prim) Unit}
    (hw : (loginBook tool args log).Open attempts 0 w) (hlogin : LoggedIn [] attempts out) :
    Following (endLogin tool args.address login out) (fun after _ => (loginBook tool args log).Closed after) w := by
  obtain ⟨handed, result, rfl, rfl, -⟩ := hlogin
  have hnone : (∀ b, result ≠ .error (.ble b)) →
      (loginBook tool args log).counts ([] ++ [⟨handed, some result⟩]) 0 :=
    fun hb => Or.inr ⟨_, rfl, Or.inr ⟨fun b h => hb b (Option.some.inj h), rfl⟩⟩
  have hone : ∀ b, result = .error (.ble b) →
      (loginBook tool args log).counts ([] ++ [⟨handed, some result⟩]) (refusals none) :=
    fun b hb => Or.inr ⟨_, rfl, Or.inl ⟨⟨b, congrArg some hb⟩, rfl⟩⟩
  cases result with
  | ok u =>
    refine unlogged_closed (?_ : Calls Unlogged _) (hw.closed (hnone (by simp)))
    refine (unlogged_of_calls (calls_say rfl)).bind (fun _ => ?_)
    cases login.stored with
    | some stored => exact unlogged_setAddress stored
    | none => trivial
  | error x =>
    cases x with
    | ble b =>
      have hrecorded : Following (recordLoginFailures args.address login.kind b none)
          (fun after _ => (loginBook tool args log).Closed after) w := recordLoginFailures_following hw (hone b rfl)
      cases b <;> exact hrecorded.bind (fun _ _ hin => hin) (fun _ _ hin => hin)
    | cancelled => exact hw.closed (hnone (by simp))
    | other name => exact hw.closed (hnone (by simp))

theorem logIn_closed {args : LoginArgs} {login : Login prim} (hw : (loginBook tool args log).Open [] 0 w) :
    Following (logIn tool args.address login) (fun after _ => (loginBook tool args log).Closed after) w := by
  refine open_bind (unlogged_say _) hw loginCounts_nil (fun _ w hw => ?_)
  exact host_closed (authenticateOwner_tracking login.credential []) hw
    (fun attempts last w out hw hlogin => endLogin_closed hw hlogin)

theorem unlogged_sendOutside {payload : CommandPayload} (h : payload.commandId ∉ loginCommands) :
    (sendOutside payload : ToolProgram prim (Except Exn Response)).Calls Unlogged := by
  unfold sendOutside
  split_ifs
  · trivial
  · trivial
  · exact ⟨h, fun _ => trivial⟩

theorem unlogged_unavailable (payload : CommandPayload) :
    (.call (.unavailable payload) exnRaising : ToolProgram prim (Option Text)).Calls Unlogged :=
  ⟨trivial, fun r => unlogged_of_calls (calls_exnRaising r)⟩

theorem unlogged_readAll (shown : CommandId → Response → BleResult Text)
    {items : List (String × CommandPayload)} (h : ∀ item ∈ items, item.2.commandId ∉ loginCommands) (failed : Bool) :
    (readAll shown failed items : ToolProgram prim Bool).Calls Unlogged := by
  induction items generalizing failed with
  | nil => trivial
  | cons item rest ih =>
    obtain ⟨name, payload⟩ := item
    have hrest : ∀ failed, (readAll shown failed rest : ToolProgram prim Bool).Calls Unlogged :=
      ih (fun item hitem => h item (List.mem_cons_of_mem _ hitem))
    refine (unlogged_unavailable payload).bind (fun feature => ?_)
    cases feature with
    | some feature => exact (unlogged_say _).bind (fun _ => hrest failed)
    | none =>
      refine (unlogged_sendOutside (h _ List.mem_cons_self)).bind (fun reply => ?_)
      cases reply with
      | ok response =>
        dsimp only
        cases shown payload.commandId response with
        | ok result => exact (unlogged_say _).bind (fun _ => hrest failed)
        | error b => trivial
      | error x =>
        cases x with
        | ble b =>
          cases b with
          | operation status command => exact (unlogged_say _).bind (fun _ => hrest true)
          | timeout message cause => exact (unlogged_say _).bind (fun _ => trivial)
          | _ => trivial
        | _ => trivial

theorem writeInSession_closed {args : LoginArgs} {login : Login prim} {write : Write} {description : List Text}
    (hw : (loginBook tool args log).Open [] 0 w) :
    Following (writeInSession tool args login write description)
      (fun after _ => (loginBook tool args log).Closed after) w := by
  have hwrites : ∀ id ∈ writeCommands, id ∉ loginCommands := by decide
  refine open_bind (unlogged_sayAll description) hw loginCounts_nil (fun _ w hw => ?_)
  refine open_bind (unlogged_unavailable write.payload) hw loginCounts_nil (fun feature w hw => ?_)
  cases feature with
  | some feature => exact hw.closed loginCounts_nil
  | none =>
    refine closed_bind (logIn_closed hw) (fun _ => (unlogged_sayAll _).bind (fun _ => (unlogged_say _).bind (fun _ => ?_)))
    refine (unlogged_sendOutside (hwrites _ write.listed)).bind (fun reply => ?_)
    cases reply with
    | error x =>
      cases x with
      | ble b =>
        cases b with
        | operation status command => exact (unlogged_say _).bind (fun _ => trivial)
        | _ => trivial
      | _ => trivial
    | ok response =>
      refine (unlogged_say _).bind (fun _ => ?_)
      cases write.parse with
      | none => trivial
      | some parse =>
        dsimp only
        cases parse response with
        | ok result => exact (unlogged_say _).bind (fun _ => trivial)
        | error b => trivial

theorem map_closed {book : Book} {p : ToolProgram prim Nat} (hp : p.Calls Unlogged) (hw : book.Closed w) :
    Following (Sum.inl <$> p : ToolProgram prim (Nat ⊕ Enrollment prim)) (fun after _ => book.Closed after) w :=
  (unlogged_closed hp hw).bind (fun _ _ hin => hin) (fun _ _ hin => hin)

theorem handle_closed {args : EnrollArgs} {kind : LoginKind} {refusal : String → String}
    {last : Option (Enrollment prim)} {out : Except (Raised prim) (Enrollment prim)}
    (hw : (enrollBook tool args log).Open attempts 0 w) (hin : Accounted attempts out) :
    Following (handle tool args.address kind refusal last out)
      (fun after _ => (enrollBook tool args log).Closed after) w := by
  have hclosed : (∀ a ∈ attempts.getLast?, ¬ a.Refused) → (enrollBook tool args log).Closed w :=
    fun hlast => hw.closed (Or.inl ⟨hlast, rfl⟩)
  cases out with
  | ok e => exact hclosed hin
  | error raised =>
    obtain ⟨exn, context⟩ := raised
    cases exn with
    | notSaved step e reason => exact map_closed (unlogged_enrollmentNotSaved step e reason) (hclosed hin)
    | stopped step enrollment reason =>
      cases enrollment with
      | none => exact map_closed (unlogged_of_calls (calls_enrollmentKeyless step reason)) (hclosed hin)
      | some e => exact map_closed (unlogged_enrollmentPartial step e reason) (hclosed hin)
    | plain x =>
      cases x with
      | cancelled =>
        exact (unlogged_closed (unlogged_enrollmentInterrupted last) (hclosed hin)).bind (fun _ _ hin => hin)
          (fun _ _ hin => hin)
      | other name => exact hclosed hin
      | ble b =>
        cases b with
        | operation status command =>
          obtain ⟨hlength, hall⟩ := hin
          have hne : attempts ≠ [] := by
            rintro rfl
            have hpos : 0 < refusals context := by
              unfold refusals
              split <;> decide
            exact absurd hlength (Nat.ne_of_lt hpos)
          have hcounts : (enrollBook tool args log).counts attempts (refusals context) :=
            Or.inr ⟨hne, hlength.symm, hall⟩
          exact (recordLoginFailures_following hw hcounts).bind (fun _ _ hin => hin) (fun _ _ hin => hin)
        | _ => exact hclosed hin

theorem enrollInSession_closed {args : EnrollArgs} {name : String} {description : List Text}
    (hw : (enrollBook tool args log).Open [] 0 w) :
    Following (enrollInSession tool args name description : ToolProgram prim (Nat ⊕ Enrollment prim))
      (fun after _ => (enrollBook tool args log).Closed after) w := by
  refine open_bind (unlogged_sayAll description) hw enrollCounts_nil (fun _ w hw => ?_)
  refine open_bind (unlogged_note _) hw enrollCounts_nil (fun _ w hw => ?_)
  exact host_closed (enroll_accounted _) hw (fun attempts last w out hw hin => handle_closed hw hin)

theorem resumeInSession_closed {args : EnrollArgs} {e : Enrollment prim} {description : List Text}
    (hw : (enrollBook tool args log).Open [] 0 w) :
    Following (resumeInSession tool args e description) (fun after _ => (enrollBook tool args log).Closed after) w := by
  refine open_bind (unlogged_sayAll description) hw enrollCounts_nil (fun _ w hw => ?_)
  refine open_bind (unlogged_note _) hw enrollCounts_nil (fun _ w hw => ?_)
  exact host_closed (resumeRaising_accounted e none) hw (fun attempts last w out hw hin => handle_closed hw hin)

/-! The commands. -/

theorem calls_resolveLogin (args : LoginArgs) : (resolveLogin tool args : ToolProgram prim (Login prim)).Calls Calm := by
  have hfind : (findLogin tool args : ToolProgram prim (StoredLock prim)).Calls Calm := by
    unfold findLogin
    cases args.state with
    | some path => exact ⟨trivial, fun file => calls_cliRaising _⟩
    | none =>
      refine (calls_findByAddress tool _).bind (fun found => ?_)
      rcases found with _ | ⟨stored, _ | ⟨other, rest⟩⟩ <;> trivial
  unfold resolveLogin
  split_ifs
  · trivial
  · refine hfind.bind (fun stored => ?_)
    dsimp only
    split_ifs
    · exact ⟨trivial, fun r => by cases r <;> trivial⟩
    · trivial

theorem cmdLogin_closed {args : LoginArgs} (hw : (loginBook tool args log).Before w) :
    Following (cmdLogin tool args : ToolProgram prim Nat) (fun after _ => (loginBook tool args log).Closed after) w := by
  refine before_bind (calls_resolveLogin args) hw (fun login w hw => ?_)
  refine checkLoginBudget_closed (loginBook tool args log) hw (fun w hw => ?_)
  refine closed_bind (openSession_closed hw (fun description w hw => ?_)) (fun _ => trivial)
  exact open_bind (unlogged_sayAll description) hw loginCounts_nil (fun _ w hw => logIn_closed hw)

theorem cmdRead_closed {args : LoginArgs} {shown : CommandId → Response → BleResult Text}
    (hw : (loginBook tool args log).Before w) :
    Following (cmdRead tool args shown : ToolProgram prim Nat)
      (fun after _ => (loginBook tool args log).Closed after) w := by
  refine before_bind (calls_resolveLogin args) hw (fun login w hw => ?_)
  refine checkLoginBudget_closed (loginBook tool args log) hw (fun w hw => ?_)
  refine closed_bind (openSession_closed hw (fun description w hw => ?_)) (fun _ => trivial)
  refine open_bind (unlogged_sayAll description) hw loginCounts_nil (fun _ w hw => ?_)
  exact closed_bind (logIn_closed hw) (fun _ => unlogged_readAll shown (by decide) false)

theorem runWrite_closed {args : LoginArgs} {write : Write} (hw : (loginBook tool args log).Before w) :
    Following (runWrite tool args write : ToolProgram prim Nat)
      (fun after _ => (loginBook tool args log).Closed after) w := by
  refine before_bind (calls_resolveLogin args) hw (fun login w hw => ?_)
  refine before_bind (calls_confirm _ _ _ _) hw (fun yes w hw => ?_)
  cases yes with
  | false => exact hw.closed
  | true =>
    refine checkLoginBudget_closed (loginBook tool args log) hw (fun w hw => ?_)
    exact openSession_closed hw (fun _ w hw => writeInSession_closed hw)

theorem enrollConfirmed_closed {args : EnrollArgs} {name : String} (hw : (enrollBook tool args log).Before w) :
    Following (enrollConfirmed tool args name : ToolProgram prim Nat)
      (fun after _ => (enrollBook tool args log).Closed after) w := by
  have hfind : (.call .findAdvertisement exnRaising : ToolProgram prim (Option Seed)).Calls Calm :=
    ⟨trivial, fun r => calls_exnRaising r⟩
  refine before_bind (calls_say rfl) hw (fun _ w hw => before_bind (calls_checkWritable tool) hw (fun _ w hw => ?_))
  refine before_bind (calls_say rfl) hw (fun _ w hw => before_bind hfind hw (fun found w hw => ?_))
  cases found with
  | none => exact hw.closed
  | some seed =>
    dsimp only
    split_ifs
    · exact hw.closed
    · refine before_bind (calls_say rfl) hw (fun _ w hw => ?_)
      refine checkLoginBudget_closed (enrollBook tool args log) hw (fun w hw => ?_)
      refine closed_bind (openSession_closed hw (fun _ w hw => enrollInSession_closed hw)) (fun out => ?_)
      exact unlogged_of_calls (calls_finished tool args.address out)

theorem cmdEnroll_closed {args : EnrollArgs} (hw : (enrollBook tool args log).Before w) :
    Following (cmdEnroll tool args : ToolProgram prim Nat)
      (fun after _ => (enrollBook tool args log).Closed after) w := by
  unfold cmdEnroll
  split_ifs
  · refine before_bind (calls_findStored tool args) hw (fun stored w hw => ?_)
    unfold resumeStored
    split_ifs
    · exact before_bind (calls_say rfl) hw (fun _ _ hw => hw.closed)
    · refine before_bind (calls_confirm _ _ _ _) hw (fun yes w hw => ?_)
      cases yes with
      | false => exact hw.closed
      | true =>
        refine before_bind (calls_checkWritable tool) hw (fun _ w hw => ?_)
        refine checkLoginBudget_closed (enrollBook tool args log) hw (fun w hw => ?_)
        refine closed_bind (openSession_closed hw (fun _ w hw => resumeInSession_closed hw)) (fun out => ?_)
        exact unlogged_of_calls (calls_finished tool args.address out)
  · unfold enrollAnew
    cases args.name with
    | none => exact hw.closed
    | some name =>
      have hvalid : (validatedCli (deviceNameSet (nameOf name)) : ToolProgram prim CommandPayload).Calls Calm := by
        unfold validatedCli
        split <;> trivial
      refine before_bind hvalid hw (fun _ w hw => before_bind (calls_findByAddress tool _) hw (fun found w hw => ?_))
      cases found with
      | cons existing rest => exact hw.closed
      | nil =>
        refine before_bind (calls_confirm _ _ _ _) hw (fun yes w hw => ?_)
        cases yes with
        | false => exact hw.closed
        | true => exact enrollConfirmed_closed hw

def Command.book (tool : Tool) (log : FailedLogins) : Command → Book
  | login args | read args _ | write args _ => loginBook tool args log
  | enroll args => enrollBook tool args log

theorem command_closed (command : Command) (hw : (command.book tool log).Before w) :
    Following (command.run tool : ToolProgram prim Nat) (fun after _ => (command.book tool log).Closed after) w := by
  cases command with
  | login args => exact cmdLogin_closed hw
  | read args shown => exact cmdRead_closed hw
  | write args write => exact runWrite_closed hw
  | enroll args => exact cmdEnroll_closed hw

/-! What the list tells. -/

/-- The lines for these logins: one for each that was spent, none for one that
went through, and at most one for another. -/
inductive Tally (address : Text) : List Attempt → List FailedLogin → Prop
  | nil : Tally address [] []
  | spent {a : Attempt} {rest : List Attempt} {entry : FailedLogin} {lines : List FailedLogin} (h : a.Spent)
      (haddress : entry.address = address) (hrest : Tally address rest lines) :
      Tally address (a :: rest) (entry :: lines)
  | succeeded {a : Attempt} {rest : List Attempt} {lines : List FailedLogin} (h : a.outcome = some (.ok ()))
      (hrest : Tally address rest lines) : Tally address (a :: rest) lines
  | other {a : Attempt} {rest : List Attempt} {extra lines : List FailedLogin} (hspent : ¬ a.Spent)
      (hfailed : a.outcome ≠ some (.ok ())) (hextra : extra.length ≤ 1) (hrest : Tally address rest lines) :
      Tally address (a :: rest) (extra ++ lines)

/-- An enrollment records its logins only where the last of them was refused. -/
def Command.Records (command : Command) (attempts : List Attempt) : Prop :=
  match command with
  | enroll _ => (∃ a ∈ attempts, a.Spent) → ∃ a ∈ attempts.getLast?, a.Refused
  | _ => True

section

variable {place : Text} {lines : List FailedLogin}

theorem tally_other {a : Attempt} {rest : List Attempt} (extra : List FailedLogin) (hspent : ¬ a.Spent)
    (hfailed : a.outcome ≠ some (.ok ())) (hextra : extra.length ≤ 1) (hrest : Tally place rest lines) :
    Tally place (a :: rest) (extra ++ lines) :=
  .other hspent hfailed hextra hrest

theorem tally_of_loginCounts (h : loginCounts attempts lines.length) (hplace : ∀ entry ∈ lines, entry.address = place) :
    Tally place attempts lines := by
  rcases h with ⟨rfl, hnone⟩ | ⟨a, rfl, ⟨⟨b, hb⟩, hone⟩ | ⟨hb, hnone⟩⟩
  · rw [List.length_eq_zero_iff.mp hnone]
    exact .nil
  · obtain ⟨entry, rfl⟩ := List.length_eq_one_iff.mp hone
    by_cases hhanded : a.handed = true
    · exact .spent ⟨hhanded, b, hb⟩ (hplace entry List.mem_cons_self) .nil
    · have hspent : ¬ a.Spent := fun h => hhanded h.1
      exact tally_other [entry] hspent (by simp [hb]) (by simp) .nil
  · rw [List.length_eq_zero_iff.mp hnone]
    by_cases hok : a.outcome = some (.ok ())
    · exact .succeeded hok .nil
    · have hspent : ¬ a.Spent := fun ⟨_, b, h⟩ => hb b h
      exact tally_other [] hspent hok (by simp) .nil

theorem tally_of_spent (hall : ∀ a ∈ attempts, a.Spent) (hlength : lines.length = attempts.length)
    (hplace : ∀ entry ∈ lines, entry.address = place) : Tally place attempts lines := by
  induction attempts generalizing lines with
  | nil =>
    rw [List.length_eq_zero_iff.mp hlength]
    exact .nil
  | cons a rest ih =>
    cases lines with
    | nil => cases hlength
    | cons entry lines =>
      refine .spent (hall a List.mem_cons_self) (hplace entry List.mem_cons_self) ?_
      refine ih (fun b hb => hall b (List.mem_cons_of_mem _ hb)) (Nat.succ.inj hlength) ?_
      exact fun e he => hplace e (List.mem_cons_of_mem _ he)

theorem tally_nil_iff : Tally place attempts [] ↔ ∀ a ∈ attempts, ¬ a.Spent := by
  constructor
  · intro h
    generalize hlines : ([] : List FailedLogin) = lines at h
    induction h with
    | nil => simp
    | spent _ _ _ _ => cases hlines
    | succeeded hok _ ih =>
      refine List.forall_mem_cons.mpr ⟨fun ⟨_, b, hb⟩ => ?_, ih hlines⟩
      rw [hok] at hb
      cases hb
    | other hspent _ _ _ ih =>
      obtain ⟨-, hrest⟩ := List.append_eq_nil_iff.mp hlines.symm
      exact List.forall_mem_cons.mpr ⟨hspent, ih hrest.symm⟩
  · intro h
    induction attempts with
    | nil => exact .nil
    | cons a rest ih =>
      obtain ⟨ha, hrest⟩ := List.forall_mem_cons.mp h
      by_cases hok : a.outcome = some (.ok ())
      · exact .succeeded hok (ih hrest)
      · exact tally_other [] ha hok (by simp) (ih hrest)

theorem Attempt.Refused.spent {a : Attempt} (h : a.Refused) (hhanded : a.handed = true) : a.Spent :=
  let ⟨status, command, hout⟩ := h
  ⟨hhanded, .operation status command, hout⟩

/-- A run without a lost line tallies, if it is one that records. -/
theorem tally_iff_of_closed {command : Command} (h : (command.book tool log).Closed w)
    (hw : w.unrecorded = false) :
    (∃ lines : List FailedLogin, w.failedLogins = log ++ lines.map some ∧
      Tally command.address w.attempts lines) ↔ command.Records w.attempts := by
  rcases h.counted with hlost | ⟨entries, hentries, hplace, hcounts⟩
  · rw [hw] at hlost
    cases hlost
  · have hlog : (command.book tool log).log = log := by cases command <;> rfl
    have haddress : (command.book tool log).address = command.address := by cases command <;> rfl
    rw [hlog] at hentries
    simp only [haddress] at hplace
    have hunique : ∀ lines : List FailedLogin, w.failedLogins = log ++ lines.map some → lines = entries := by
      intro lines hlines
      have hmap : lines.map some = entries.map some := List.append_cancel_left (hlines.symm.trans hentries)
      exact (Option.some_injective _).list_map hmap
    have hlogin : loginCounts w.attempts entries.length → command.Records w.attempts →
        ((∃ lines : List FailedLogin, w.failedLogins = log ++ lines.map some ∧
          Tally command.address w.attempts lines) ↔ command.Records w.attempts) :=
      fun hc hr => ⟨fun _ => hr, fun _ => ⟨entries, hentries, tally_of_loginCounts hc hplace⟩⟩
    cases command with
    | login args => exact hlogin hcounts trivial
    | read args shown => exact hlogin hcounts trivial
    | write args write => exact hlogin hcounts trivial
    | enroll args =>
      rcases hcounts with ⟨hlast, hnone⟩ | ⟨hne, hlength, hall⟩
      · obtain rfl := List.length_eq_zero_iff.mp hnone
        constructor
        · rintro ⟨lines, hlines, htally⟩ ⟨a, ha, hspent⟩
          obtain rfl := hunique lines hlines
          exact absurd hspent (tally_nil_iff.mp htally a ha)
        · intro hrecords
          refine ⟨[], hentries, tally_nil_iff.mpr (fun a ha hspent => ?_)⟩
          obtain ⟨b, hb, hrefused⟩ := hrecords ⟨a, ha, hspent⟩
          exact hlast b hb hrefused
      · constructor
        · rintro - -
          have hlast : w.attempts.getLast? = some (w.attempts.getLast hne) := List.getLast?_eq_some_getLast hne
          exact ⟨_, hlast, (hall _ (List.getLast_mem hne)).1⟩
        · intro _
          refine ⟨entries, hentries, tally_of_spent (fun a ha => ?_) hlength hplace⟩
          exact (hall a ha).1.spent (hall a ha).2

end

/-- The lines tally if and only if the command records its logins; and no login
is made where enough have failed lately. -/
theorem failedLogins_tally_iff {command : Command} {directory : Option Directory} {out : Except CliExn Nat}
    (hs : Steps surroundings (.start directory log) (command.run tool) w (ended out))
    (hw : w.unrecorded = false) :
    ((∃ lines : List FailedLogin, w.failedLogins = log ++ lines.map some ∧
      Tally command.address w.attempts lines) ↔ command.Records w.attempts) ∧
    (command.forceLogin = false → (∀ moment ∈ w.asked,
      failedLoginLimit ≤ FailedLogins.recent tool.casefold log command.address moment.micros) →
      w.attempts = []) := by
  have hstart : (command.book tool log).Before (World.start directory log : World prim) := by
    cases command <;> exact ⟨rfl, rfl, rfl, rfl⟩
  have hend := (command_closed command hstart).of_steps hs
  have hclosed : (command.book tool log).Closed w := by
    cases out with
    | ok exitCode => exact hend
    | error x => exact hend
  refine ⟨tally_iff_of_closed hclosed hw, fun hforce hrecent => ?_⟩
  rcases hclosed.allowed with hnone | hallowed | ⟨moment, hmoment, hlt⟩
  · exact hnone
  · cases command <;> exact absurd (hallowed.symm.trans hforce) (by decide)
  · cases command <;> exact absurd (hrecent moment hmoment) (not_le.mpr hlt)

/-! The front door, enrolled while the lock does not answer. -/

def enrollArgs : EnrollArgs := ⟨frontDoorAddress, some (text "Front"), false, none, text "30", true, false⟩

def unanswered : CommandPayload → Except Exn Response :=
  fun _ => .error (.ble (.timeout "No answer from the lock" none))

def unansweredWorld : World Primitives.scalarOne :=
  ((Command.enroll enrollArgs).run frontDoorTool |>.eval (obliging unanswered) (.start none [])).2

theorem steps_unanswered : Steps surroundings (.start none []) ((Command.enroll enrollArgs).run frontDoorTool)
    unansweredWorld (ended (.error (.exn (.ble (.timeout "No answer from the lock" none))))) := by
  have hrun := steps_eval (surroundings_obliging unanswered) ((Command.enroll enrollArgs).run frontDoorTool)
    (.start none [])
  have hout : (((Command.enroll enrollArgs).run frontDoorTool).eval (obliging unanswered) (.start none [])).1 =
      .error (.exn (.ble (.timeout "No answer from the lock" none))) := by rfl
  rw [hout] at hrun
  exact hrun

theorem unanswered_attempts : unansweredWorld.attempts =
    [⟨true, some (.error (.ble (.timeout "No answer from the lock" none)))⟩] := by rfl

theorem unanswered_failedLogins : unansweredWorld.failedLogins = [] := by rfl

/-- A login that the lock did not answer is not on the list. -/
theorem failedLogin_missing : Steps surroundings (.start none []) ((Command.enroll enrollArgs).run frontDoorTool)
      unansweredWorld (ended (.error (.exn (.ble (.timeout "No answer from the lock" none))))) ∧
    unansweredWorld.unrecorded = false ∧
    ¬ ∃ lines : List FailedLogin, unansweredWorld.failedLogins = [] ++ lines.map some ∧
      Tally frontDoorAddress unansweredWorld.attempts lines := by
  refine ⟨steps_unanswered, rfl, ?_⟩
  rintro ⟨lines, hlines, htally⟩
  rw [unanswered_failedLogins] at hlines
  obtain rfl : lines = [] := List.map_eq_nil_iff.mp hlines.symm
  rw [unanswered_attempts] at htally
  refine tally_nil_iff.mp htally _ List.mem_cons_self ⟨rfl, _, rfl⟩

theorem failedLogins_tally_iff_unanswered :
    ((∃ lines : List FailedLogin, unansweredWorld.failedLogins = [] ++ lines.map some ∧
      Tally frontDoorAddress unansweredWorld.attempts lines) ↔
        (Command.enroll enrollArgs).Records unansweredWorld.attempts) ∧
    ((Command.enroll enrollArgs).forceLogin = false → (∀ moment ∈ unansweredWorld.asked,
      failedLoginLimit ≤ FailedLogins.recent frontDoorTool.casefold [] frontDoorAddress moment.micros) →
      unansweredWorld.attempts = []) :=
  failedLogins_tally_iff steps_unanswered rfl

end OnestiLock.Cli
