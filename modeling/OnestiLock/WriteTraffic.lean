import OnestiLock.CommandCalls
import OnestiLock.CommandRuns
import OnestiLock.EnrollmentCalls
import OnestiLock.WriteCommands

/-! What a write sends to the lock, whatever the lock, the files and the user
do. -/

namespace OnestiLock.Cli

open Python Json Program

variable {prim : Primitives} {α β : Type}

/-- A command that was handed over, and what came of it. -/
abbrev Sent := CommandPayload × Except Exn Response

/-- What the user was told before the radio was used, whether it was, and what
was sent. -/
structure Traffic where
  announced : List Text
  contacted : Bool
  sent : List Sent

namespace Traffic

def start : Traffic := ⟨[], false, []⟩

def next (t : Traffic) : (op : ToolOp prim) → ToolReply prim op → Traffic
  | .say (.plain line), .ok () => if t.contacted then t else { t with announced := t.announced ++ [line] }
  | .openTransport, _ => { t with contacted := true }
  | .send command, reply => { t with sent := t.sent ++ ([(command, reply)] : List Sent) }
  | _, _ => t

end Traffic

/-- Anything may be answered; the traffic is only watched. -/
def listening : Surroundings (ToolOp prim) (ToolReply prim) Traffic := fun t op reply after => after = t.next op reply

/-- At every moment of a program `inv` holds, and `post` at its end. -/
abbrev Keeping (inv : Traffic → Prop) (p : ToolProgram prim α) (post : Traffic → Except CliExn α → Prop)
    (t : Traffic) : Prop :=
  p.Ensures listening (fun t _ => inv t) (fun t out => inv t ∧ post t out) t

/-! The orders of a login. -/

/-- The commands of a login, as far as it came. -/
inductive LoginTraffic : List Sent → Prop
  | nothing : LoginTraffic []
  | begun {c : CommandPayload} (r : Except Exn Response) : c.commandId = .userAuthBegin → LoginTraffic [(c, r)]
  | answered {c d : CommandPayload} (r : Response) (r' : Except Exn Response) : c.commandId = .userAuthBegin →
      d.commandId = .userAuthFinalize → LoginTraffic [(c, .ok r), (d, r')]

/-- The commands of a login that went through. -/
inductive LetIn : List Sent → Prop
  | through {c d : CommandPayload} (r r' : Response) : c.commandId = .userAuthBegin →
      d.commandId = .userAuthFinalize → LetIn [(c, .ok r), (d, .ok r')]

theorem LetIn.login {l : List Sent} (h : LetIn l) : LoginTraffic l := by
  cases h with
  | through r r' hc hd => exact .answered r (.ok r') hc hd

/-- How a login that sent this may end. -/
def Exchanged (l : List Sent) : Except (EnrollmentExn prim) Unit → Prop
  | .ok _ => LetIn l
  | .error _ => LoginTraffic l

theorem Exchanged.login {l : List Sent} {out : Except (EnrollmentExn prim) Unit} (h : Exchanged l out) :
    LoginTraffic l := by
  cases out with
  | ok u => exact LetIn.login h
  | error x => exact h

/-- What the library sends, answered by anything. -/
def exchanging : Surroundings (EnrollmentOp prim) (EnrollmentReply prim) (List Sent) := fun l op reply after =>
  match op, reply with
  | .send command, reply => after = l ++ ([(command, reply)] : List Sent)
  | _, _ => after = l

theorem authenticateOwner_exchanging (credential : OwnerCredential) :
    (authenticateOwner credential : EnrollmentProgram prim Unit).Ensures exchanging (fun l _ => LoginTraffic l)
      Exchanged [] := by
  have hraising : ∀ {α : Type} (x : Except Exn α) {l : List Sent}, LoginTraffic l →
      (raising x : EnrollmentProgram prim α).Ensures exchanging (fun l _ => LoginTraffic l)
        (fun after _ => after = l ∧ LoginTraffic after) l := by
    intro α x l hl
    cases x <;> exact ⟨rfl, hl⟩
  unfold authenticateOwner request sendCommand
  cases hbegin : userAuthBegin credential.userId credential.deviceId with
  | error e => exact .nothing
  | ok c =>
    have hc : c.commandId = .userAuthBegin := userAuthBegin_commandId hbegin
    refine ⟨.nothing, fun reply l hl => ?_⟩
    obtain rfl : l = [(c, reply)] := hl
    cases reply with
    | error x => exact .begun (.error x) hc
    | ok response =>
      have hbegun : LoginTraffic [(c, .ok response)] := .begun (.ok response) hc
      refine (hraising _ hbegun).bind (fun l challenge hl => ?_) (fun l e hl => hl.2)
      obtain ⟨rfl, -⟩ := hl
      refine ⟨hbegun, fun keys l hl => ?_⟩
      obtain rfl : l = [(c, .ok response)] := hl
      refine (hraising keys hbegun).bind (fun l keys hl => ?_) (fun l e hl => hl.2)
      obtain ⟨rfl, -⟩ := hl
      refine (hraising _ hbegun).bind (fun l answer hl => ?_) (fun l e hl => hl.2)
      obtain ⟨rfl, -⟩ := hl
      cases hfinalize : userAuthFinalize answer with
      | error e => exact hbegun
      | ok d =>
        have hd : d.commandId = .userAuthFinalize := userAuthFinalize_commandId hfinalize
        refine ⟨hbegun, fun reply' l hl => ?_⟩
        obtain rfl : l = [(c, .ok response), (d, reply')] := hl
        cases reply' with
        | error x => exact .answered response (.error x) hc hd
        | ok response' => exact .through response response' hc hd

/-! Moments of a write. -/

/-- Nothing was sent yet, and these lines were said. -/
structure Silent (lines : List Text) (t : Traffic) : Prop where
  contacted : t.contacted = false
  sent : t.sent = []
  announced : ∀ line ∈ lines, line ∈ t.announced

/-- These lines were said before the radio was used, and this was sent since. -/
structure Linked (lines : List Text) (sent : List Sent) (t : Traffic) : Prop where
  contacted : t.contacted = true
  sent : t.sent = sent
  announced : ∀ line ∈ lines, line ∈ t.announced

def Quiet : ToolOp prim → Prop
  | .openTransport | .send _ => False
  | _ => True

def Unsent : ToolOp prim → Prop
  | .send _ => False
  | _ => True

theorem silent_next {lines : List Text} {t : Traffic} {op : ToolOp prim} (hop : Quiet op) (h : Silent lines t)
    (reply : ToolReply prim op) : Silent lines (t.next op reply) := by
  cases op with
  | openTransport => exact absurd hop id
  | send command => exact absurd hop id
  | say line =>
    cases line with
    | plain line =>
      cases reply with
      | error fault => exact h
      | ok u =>
        have hnext : t.next (.say (.plain line) : ToolOp prim) (.ok u) = { t with announced := t.announced ++ [line] } :=
          if_neg (by simp [h.contacted])
        rw [hnext]
        exact ⟨h.contacted, h.sent, fun l hl => List.mem_append_left _ (h.announced l hl)⟩
    | _ => exact h
  | _ => exact h

theorem linked_next {lines : List Text} {sent : List Sent} {t : Traffic} {op : ToolOp prim} (hop : Unsent op)
    (h : Linked lines sent t) (reply : ToolReply prim op) : Linked lines sent (t.next op reply) := by
  cases op with
  | send command => exact absurd hop id
  | openTransport => exact ⟨rfl, h.sent, h.announced⟩
  | say line =>
    cases line with
    | plain line =>
      cases reply with
      | error fault => exact h
      | ok u =>
        have hnext : t.next (.say (.plain line) : ToolOp prim) (.ok u) = t := if_pos h.contacted
        rw [hnext]
        exact h
    | _ => exact h
  | _ => exact h

section

variable {inv : Traffic → Prop} {lines : List Text} {sent : List Sent} {t : Traffic} {p : ToolProgram prim α}

theorem keeping_quiet (hp : p.Calls Quiet) (hinv : ∀ t, Silent lines t → inv t) (ht : Silent lines t) :
    Keeping inv p (fun t _ => Silent lines t) t := by
  have hkept : p.Ensures listening (fun t _ => inv t) (fun t _ => Silent lines t) t :=
    hp.ensures (fun t op h _ => hinv t h) (fun t op reply after h hop hr => hr ▸ silent_next hop h reply) ht
  exact hkept.mono (fun t _ h => ⟨hinv t h, h⟩)

theorem keeping_unsent (hp : p.Calls Unsent) (hinv : ∀ t, Linked lines sent t → inv t) (ht : Linked lines sent t) :
    Keeping inv p (fun t _ => Linked lines sent t) t := by
  have hkept : p.Ensures listening (fun t _ => inv t) (fun t _ => Linked lines sent t) t :=
    hp.ensures (fun t op h _ => hinv t h) (fun t op reply after h hop hr => hr ▸ linked_next hop h reply) ht
  exact hkept.mono (fun t _ h => ⟨hinv t h, h⟩)

theorem keeping_bind {post : Traffic → Except CliExn α → Prop} {final : Traffic → Except CliExn β → Prop}
    {f : α → ToolProgram prim β} (h : Keeping inv p post t) (ha : ∀ t a, post t (.ok a) → Keeping inv (f a) final t)
    (he : ∀ t e, post t (.error e) → final t (.error e)) : Keeping inv (p >>= f) final t :=
  h.bind (fun t a h => ha t a h.2) (fun t e h => ⟨h.1, he t e h.2⟩)

end

/-! What neither sends nor uses the radio. -/

section

variable {tool : Tool} {address : Argument}

theorem unsent_of_recording {place : Text} {op : ToolOp prim} (hop : Recording place op) : Unsent op := by
  cases op with
  | send command => exact absurd hop id
  | _ => trivial

theorem unsent_of_calm {op : ToolOp prim} (hop : Calm op) : Unsent op := by
  cases op with
  | send command => exact absurd hop id
  | _ => trivial

theorem unsent_of_quiet {op : ToolOp prim} (hop : Quiet op) : Unsent op := by
  cases op with
  | send command => exact absurd hop id
  | _ => trivial

theorem quiet_say (line : Line) : (say line : ToolProgram prim Unit).Calls Quiet :=
  ⟨trivial, fun r => by cases r <;> trivial⟩

theorem quiet_sayAll (lines : List Text) : (sayAll lines : ToolProgram prim Unit).Calls Quiet := by
  induction lines with
  | nil => trivial
  | cons line rest ih => exact (quiet_say _).bind (fun _ => ih)

theorem quiet_cliRaising (x : Except CliExn α) : (cliRaising x : ToolProgram prim α).Calls Quiet := by
  cases x <;> trivial

theorem quiet_findLogin (args : LoginArgs) : (findLogin tool args : ToolProgram prim (StoredLock prim)).Calls Quiet := by
  have hfind : (findByAddress tool args.address : ToolProgram prim (List (StoredLock prim))).Calls Quiet := by
    refine ⟨trivial, fun listed => ?_⟩
    cases listed with
    | ok directory => exact quiet_cliRaising _
    | error x => trivial
  unfold findLogin
  cases args.state with
  | some path => exact ⟨trivial, fun file => quiet_cliRaising _⟩
  | none =>
    refine hfind.bind (fun found => ?_)
    rcases found with _ | ⟨stored, _ | ⟨other, rest⟩⟩ <;> trivial

theorem quiet_resolveLogin (args : LoginArgs) : (resolveLogin tool args : ToolProgram prim (Login prim)).Calls Quiet := by
  unfold resolveLogin
  split_ifs
  · trivial
  · refine (quiet_findLogin args).bind (fun stored => ?_)
    dsimp only
    split_ifs
    · exact ⟨trivial, fun r => by cases r <;> trivial⟩
    · trivial

theorem quiet_checkLoginBudget (place : Text) (forceLogin : Bool) :
    (checkLoginBudget tool place forceLogin : ToolProgram prim Unit).Calls Quiet := by
  refine ⟨trivial, fun now => ⟨trivial, fun log => ?_⟩⟩
  cases log with
  | error x => trivial
  | ok log =>
    show Calls Quiet (ite _ _ _)
    split_ifs
    · trivial
    · trivial
    · exact ⟨trivial, fun r => by cases r <;> trivial⟩

theorem unsent_setAddress (stored : StoredLock prim) : (setAddress tool stored address).Calls Unsent := by
  unfold setAddress
  split_ifs
  · trivial
  · exact ⟨trivial, fun saved => ⟨trivial, fun written => by cases written <;> trivial⟩⟩

theorem unsent_saver (last : Option (Enrollment prim)) (e : Enrollment prim) :
    (saver tool address last e).Calls Unsent := by
  have htry : (trySave tool e address).Calls Unsent := ⟨trivial, fun _ => ⟨trivial, fun _ => trivial⟩⟩
  refine htry.bind (fun written => ?_)
  cases written with
  | error fault => trivial
  | ok path =>
    refine ⟨trivial, fun _ => ⟨trivial, fun said => ?_⟩⟩
    cases said with
    | ok u => trivial
    | error fault => cases fault <;> trivial

end

/-! The phases of a write. -/

section

variable {inv : Traffic → Prop} {lines : List Text} {t : Traffic} {tool : Tool}

def announcement (description : Text) : Text := text "  3. " ++ description

/-- The lines of a login and a step. -/
theorem announcedSteps (login description : Text) :
    ((some login).toList.map (fun login => text "log in with " ++ login) ++ [description]).mapIdx
        (fun i step => text s!"  {i + 2}. " ++ step) =
      [text "  2. " ++ (text "log in with " ++ login), announcement description] := by
  have hfirst : text s!"  {0 + 2}. " = text "  2. " := rfl
  have hsecond : text s!"  {0 + 1 + 2}. " = text "  3. " := rfl
  simp only [Option.toList_some, List.map_cons, List.map_nil, List.cons_append, List.nil_append, List.mapIdx_cons,
    List.mapIdx_nil, hfirst, hsecond, announcement]

theorem say_keeping (line : Text) (hinv : ∀ t, Silent [] t → inv t) (ht : Silent [] t) :
    Keeping inv (say (.plain line) : ToolProgram prim Unit) (fun t out =>
      match out with
      | .ok _ => Silent [line] t
      | .error _ => True) t := by
  refine ⟨hinv t ht, fun reply after hr => ?_⟩
  obtain rfl : after = t.next (.say (.plain line) : ToolOp prim) reply := hr
  have hafter := silent_next (by trivial) ht reply
  cases reply with
  | error fault => exact ⟨hinv _ hafter, trivial⟩
  | ok u =>
    refine ⟨hinv _ hafter, hafter.contacted, hafter.sent, fun l hl => ?_⟩
    have hnext : t.next (.say (.plain line) : ToolOp prim) (.ok u) = { t with announced := t.announced ++ [line] } :=
      if_neg (by simp [ht.contacted])
    rw [List.mem_singleton.mp hl, hnext]
    exact List.mem_append_right _ List.mem_cons_self

theorem confirm_keeping (address login description : Text) (yes : Bool) (hinv : ∀ t, Silent [] t → inv t)
    (ht : Silent [] t) :
    Keeping inv (confirm address (some login) [description] yes : ToolProgram prim Bool) (fun t out =>
      match out with
      | .ok answer => answer = yes ∧ Silent [announcement description] t
      | .error _ => True) t := by
  have hfinal : ∀ t, Silent [announcement description] t → inv t :=
    fun t ht => hinv t ⟨ht.contacted, ht.sent, fun _ hl => by cases hl⟩
  refine keeping_bind (keeping_quiet (quiet_say _) hinv ht) (fun t _ ht => ?_) (fun _ _ _ => trivial)
  refine keeping_bind (keeping_quiet (quiet_say _) hinv ht) (fun t _ ht => ?_) (fun _ _ _ => trivial)
  have hsteps : Keeping inv (sayAll [text "  2. " ++ (text "log in with " ++ login), announcement description] :
      ToolProgram prim Unit) (fun t out =>
        match out with
        | .ok _ => Silent [announcement description] t
        | .error _ => True) t := by
    refine keeping_bind (keeping_quiet (quiet_say _) hinv ht) (fun t _ ht => ?_) (fun _ _ _ => trivial)
    exact keeping_bind (say_keeping _ hinv ht) (fun t _ ht => ⟨hfinal t ht, ht⟩) (fun _ _ _ => trivial)
  dsimp only
  rw [announcedSteps]
  refine keeping_bind hsteps (fun t _ ht => ?_) (fun _ _ _ => trivial)
  cases yes with
  | true => exact ⟨hfinal t ht, rfl, ht⟩
  | false =>
    refine keeping_bind (keeping_quiet (quiet_say _) hfinal ht) (fun t _ ht => ?_) (fun _ _ _ => trivial)
    exact ⟨hfinal t ht, rfl, ht⟩

/-- How a login ends: let in, or as far as it came. -/
def LoginEnd (lines : List Text) (t : Traffic) : Except CliExn Unit → Prop
  | .ok _ => ∃ l, LetIn l ∧ Linked lines l t
  | .error _ => ∃ l, LoginTraffic l ∧ Linked lines l t

/-- What the library calls keeps the traffic of its login. -/
theorem carry_keeping {address : Argument} {l : List Sent} (last : Option (Enrollment prim)) (op : EnrollmentOp prim)
    (hinv : ∀ l t, LoginTraffic l → Linked lines l t → inv t) (hl : LoginTraffic l) (ht : Linked lines l t) :
    (carry tool address last op).Ensures listening (fun t _ => inv t) (fun after out =>
      match out with
      | .ok r => ∃ l', exchanging l op r.1 l' ∧ Linked lines l' after
      | .error _ => inv after ∧ Linked lines l after) t := by
  have hkept : ∀ {op : ToolOp prim} {reply : ToolReply prim op} {after : Traffic}, Unsent op →
      listening t op reply after → Linked lines l after := fun hop hr => hr ▸ linked_next hop ht _
  cases op with
  | send command =>
    refine ⟨hinv l t hl ht, fun reply after hr => ?_⟩
    obtain rfl : after = t.next (.send command) reply := hr
    exact ⟨_, rfl, ht.contacted, congrArg (· ++ [(command, reply)]) ht.sent, ht.announced⟩
  | linkKeys => exact ⟨hinv l t hl ht, fun reply after hr => ⟨l, rfl, hkept (by trivial) hr⟩⟩
  | newDeviceId => exact ⟨hinv l t hl ht, fun reply after hr => ⟨l, rfl, hkept (by trivial) hr⟩⟩
  | keyPairFactory => exact ⟨hinv l t hl ht, fun reply after hr => ⟨l, rfl, hkept (by trivial) hr⟩⟩
  | now => exact ⟨hinv l t hl ht, fun reply after hr => ⟨l, rfl, hkept (by trivial) hr⟩⟩
  | save e =>
    refine (keeping_unsent (unsent_saver last e) (fun t => hinv l t hl) ht).mono (fun after out h => ?_)
    cases out with
    | ok r => exact ⟨l, rfl, h.2⟩
    | error e => exact h

theorem endLogin_keeping {address : Argument} {login : Login prim} {l : List Sent}
    {out : Except (EnrollmentExn prim) Unit} (hinv : ∀ t, Linked lines l t → inv t) (ht : Linked lines l t)
    (hout : Exchanged l out) :
    Keeping inv (endLogin tool address login out) (LoginEnd lines) t := by
  have hrecorded : ∀ (b : BleError) (e : CliExn), LoginTraffic l →
      Keeping inv (recordLoginFailures address login.kind b none >>= fun _ => .fail e : ToolProgram prim Unit)
        (LoginEnd lines) t := by
    intro b e hl
    have hcalls : (recordLoginFailures address login.kind b none : ToolProgram prim Unit).Calls Unsent :=
      (calls_recordLoginFailures _ _ _ _).mono fun _ => unsent_of_recording
    exact keeping_bind (keeping_unsent hcalls hinv ht) (fun t _ ht => ⟨hinv t ht, l, hl, ht⟩) (fun t _ ht => ⟨l, hl, ht⟩)
  cases out with
  | ok u =>
    refine keeping_bind (keeping_unsent ((quiet_say _).mono fun _ => unsent_of_quiet) hinv ht) (fun t _ ht => ?_)
      (fun t _ ht => ⟨l, hout.login, ht⟩)
    cases login.stored with
    | none => exact ⟨hinv t ht, l, hout, ht⟩
    | some stored =>
      refine (keeping_unsent (unsent_setAddress stored) hinv ht).mono (fun t out h => ?_)
      cases out with
      | ok u => exact ⟨h.1, l, hout, h.2⟩
      | error e => exact ⟨h.1, l, hout.login, h.2⟩
  | error x =>
    have hended : inv t ∧ ∃ l, LoginTraffic l ∧ Linked lines l t := ⟨hinv t ht, l, hout, ht⟩
    cases x with
    | plain x =>
      cases x with
      | ble b => cases b <;> exact hrecorded _ _ hout
      | cancelled => exact hended
      | other name => exact hended
    | stopped step enrollment cause => exact hended
    | notSaved step enrollment cause => exact hended

theorem logIn_keeping (address : Argument) (login : Login prim)
    (hinv : ∀ l t, LoginTraffic l → Linked lines l t → inv t) (ht : Linked lines [] t) :
    Keeping inv (logIn tool address login) (LoginEnd lines) t := by
  refine keeping_bind (keeping_unsent ((quiet_say _).mono fun _ => unsent_of_quiet) (fun t => hinv [] t .nothing) ht)
    (fun t _ ht => ?_) (fun t _ ht => ⟨[], .nothing, ht⟩)
  have hend : ∀ l (last : Option (Enrollment prim)) t out, Linked lines l t → Exchanged l out →
      Keeping inv (endLogin tool address login out) (LoginEnd lines) t :=
    fun l last t out ht hout => endLogin_keeping (fun t => hinv l t hout.login) ht hout
  refine (authenticateOwner_exchanging login.credential).host ?_ hend ht
  intro l last t op ht hl
  refine (carry_keeping last op hinv hl ht).mono (fun after out h => ?_)
  cases out with
  | ok r => exact h
  | error e => exact ⟨h.1, l, hl, h.2⟩

/-- What a write has sent: its login, and last the one command it is for. -/
def WriteOrder (payload : CommandPayload) (sent : List Sent) : Prop :=
  LoginTraffic sent ∨ ∃ login reply, LetIn login ∧ sent = login ++ [(payload, reply)]

/-- Success is told only of a command that the lock confirmed. -/
def Reports (payload : CommandPayload) (t : Traffic) : Except CliExn Nat → Prop
  | .ok exitCode => exitCode = exitOk →
    ∃ login response, LetIn login ∧ t.sent = login ++ [(payload, .ok response)]
  | .error _ => True

theorem sendOutside_keeping {payload : CommandPayload} {l : List Sent} (hbefore : inv t)
    (hafter : ∀ reply t, Linked lines (l ++ [(payload, reply)]) t → inv t) (ht : Linked lines l t) :
    Keeping inv (sendOutside payload : ToolProgram prim (Except Exn Response)) (fun t out =>
      match out with
      | .ok reply => Linked lines (l ++ [(payload, reply)]) t
      | .error _ => True) t := by
  unfold sendOutside
  split_ifs
  · exact ⟨hbefore, trivial⟩
  · exact ⟨hbefore, trivial⟩
  · refine ⟨hbefore, fun reply after hr => ?_⟩
    obtain rfl : after = t.next (.send payload : ToolOp prim) reply := hr
    have hsent : Linked lines (l ++ ([(payload, reply)] : List Sent)) (t.next (.send payload : ToolOp prim) reply) :=
      ⟨ht.contacted, congrArg (· ++ [(payload, reply)]) ht.sent, ht.announced⟩
    exact ⟨hafter reply _ hsent, hsent⟩

theorem writeInSession_keeping {args : LoginArgs} {login : Login prim} {write : Write} {description : List Text}
    (hinv : ∀ l t, WriteOrder write.payload l → Linked lines l t → inv t) (ht : Linked lines [] t) :
    Keeping inv (writeInSession tool args login write description) (Reports write.payload) t := by
  have hlogin : ∀ l t, LoginTraffic l → Linked lines l t → inv t := fun l t hl => hinv l t (.inl hl)
  have hnothing : ∀ t, Linked lines [] t → inv t := fun t => hlogin [] t .nothing
  have hsay : ∀ line : Line, (say line : ToolProgram prim Unit).Calls Unsent :=
    fun line => (quiet_say line).mono fun _ => unsent_of_quiet
  have hsayAll : ∀ lines : List Text, (sayAll lines : ToolProgram prim Unit).Calls Unsent :=
    fun lines => (quiet_sayAll lines).mono fun _ => unsent_of_quiet
  refine keeping_bind (keeping_unsent (hsayAll description) hnothing ht) (fun t _ ht => ?_) (fun _ _ _ => trivial)
  have hasks : (.call (.unavailable write.payload) exnRaising : ToolProgram prim (Option Text)).Calls Unsent :=
    ⟨trivial, fun r => by cases r <;> trivial⟩
  refine keeping_bind (keeping_unsent hasks hnothing ht) (fun t feature ht => ?_) (fun _ _ _ => trivial)
  cases feature with
  | some feature => exact ⟨hnothing t ht, trivial⟩
  | none =>
    refine keeping_bind (logIn_keeping args.address login hlogin ht) (fun t _ ht => ?_) (fun _ _ _ => trivial)
    obtain ⟨l, hl, ht⟩ := ht
    have hinside : ∀ t, Linked lines l t → inv t := fun t => hlogin l t hl.login
    refine keeping_bind (keeping_unsent (hsayAll _) hinside ht) (fun t _ ht => ?_) (fun _ _ _ => trivial)
    refine keeping_bind (keeping_unsent (hsay _) hinside ht) (fun t _ ht => ?_) (fun _ _ _ => trivial)
    have hafter : ∀ reply t, Linked lines (l ++ [(write.payload, reply)]) t → inv t :=
      fun reply t => hinv _ t (.inr ⟨l, reply, hl, rfl⟩)
    refine keeping_bind (sendOutside_keeping (hinside t ht) hafter ht) (fun t reply ht => ?_) (fun _ _ _ => trivial)
    cases reply with
    | error x =>
      have hraised : inv t ∧ True := ⟨hafter _ t ht, trivial⟩
      cases x with
      | ble b =>
        cases b with
        | operation status command =>
          exact keeping_bind (keeping_unsent (hsay _) (hafter _) ht)
            (fun t _ ht => ⟨hafter _ t ht, fun h => absurd h (by decide)⟩) (fun _ _ _ => trivial)
        | _ => exact hraised
      | _ => exact hraised
    | ok response =>
      have hconfirmed : ∀ t, Linked lines (l ++ [(write.payload, .ok response)]) t → inv t ∧
          (exitOk = exitOk → ∃ login response, LetIn login ∧ t.sent = login ++ [(write.payload, .ok response)]) :=
        fun t ht => ⟨hafter _ t ht, fun _ => ⟨l, response, hl, ht.sent⟩⟩
      refine keeping_bind (keeping_unsent (hsay _) (hafter _) ht) (fun t _ ht => ?_) (fun _ _ _ => trivial)
      cases write.parse with
      | none => exact hconfirmed t ht
      | some parse =>
        dsimp only
        cases parse response with
        | error b => exact ⟨hafter _ t ht, trivial⟩
        | ok result =>
          exact keeping_bind (keeping_unsent (hsay _) (hafter _) ht) (fun t _ ht => hconfirmed t ht)
            (fun _ _ _ => trivial)

theorem openSession_keeping {place : Text} {body : List Text → ToolProgram prim α}
    {final : Traffic → Except CliExn α → Prop} (hfinal : ∀ t e, final t (.error e))
    (hsilent : ∀ t, Silent lines t → inv t) (hlinked : ∀ t, Linked lines [] t → inv t)
    (hbody : ∀ t description, Linked lines [] t → Keeping inv (body description) final t)
    (ht : Silent lines t) : Keeping inv (openSession place body) final t := by
  refine keeping_bind (keeping_quiet (quiet_say _) hsilent ht) (fun t _ ht => ?_) (fun t e _ => hfinal t e)
  have hopen : Keeping inv (.call .openTransport cliRaising : ToolProgram prim Text)
      (fun t _ => Linked lines [] t) t := by
    refine ⟨hsilent t ht, fun reply after hr => ?_⟩
    have hafter : Linked lines [] after := hr ▸ ⟨rfl, ht.sent, ht.announced⟩
    cases reply <;> exact ⟨hlinked _ hafter, hafter⟩
  refine keeping_bind hopen (fun t _ ht => ?_) (fun t e _ => hfinal t e)
  have hsay : ∀ line : Line, (say line : ToolProgram prim Unit).Calls Unsent :=
    fun line => (quiet_say line).mono fun _ => unsent_of_quiet
  refine keeping_bind (keeping_unsent (hsay _) hlinked ht) (fun t _ ht => ?_) (fun t e _ => hfinal t e)
  have hconnect : (.call .connectSession exnRaising : ToolProgram prim (List Text)).Calls Unsent :=
    ⟨trivial, fun r => by cases r <;> trivial⟩
  have hsession : Keeping inv (.call .connectSession exnRaising >>= body) final t :=
    keeping_bind (keeping_unsent hconnect hlinked ht) hbody (fun t e _ => hfinal t e)
  refine hsession.both (fun t out ht => ?_)
  refine ⟨ht.1, fun reply after hr => ?_⟩
  obtain rfl : after = t := hr
  cases reply with
  | error x => exact ⟨ht.1, hfinal _ _⟩
  | ok u => cases out <;> exact ht

theorem runWrite_keeping {args : LoginArgs} {write : Write} (hsilent : ∀ t, Silent [] t → inv t)
    (hlinked : args.yes = true → ∀ l t, WriteOrder write.payload l → Linked [announcement write.description] l t →
      inv t) (ht : Silent [] t) :
    Keeping inv (runWrite tool args write : ToolProgram prim Nat) (Reports write.payload) t := by
  refine keeping_bind (keeping_quiet (quiet_resolveLogin args) hsilent ht) (fun t login ht => ?_) (fun _ _ _ => trivial)
  refine keeping_bind (confirm_keeping args.address login.description write.description args.yes hsilent ht)
    (fun t answer ht => ?_) (fun _ _ _ => trivial)
  obtain ⟨rfl, ht⟩ := ht
  have hsaid : ∀ t, Silent [announcement write.description] t → inv t :=
    fun t ht => hsilent t ⟨ht.contacted, ht.sent, fun _ hl => by cases hl⟩
  cases hyes : args.yes with
  | false => exact ⟨hsaid t ht, fun h => absurd h (by decide)⟩
  | true =>
    refine keeping_bind (keeping_quiet (quiet_checkLoginBudget _ _) hsaid ht) (fun t _ ht => ?_) (fun _ _ _ => trivial)
    exact openSession_keeping (fun _ _ => trivial) hsaid (fun t ht => hlinked hyes [] t (.inl .nothing) ht)
      (fun t description ht => writeInSession_keeping (hlinked hyes) ht) ht

end

/-! The commands. -/

namespace WriteCommand

/-- What may be sent: what was asked for, with acceptable arguments, confirmed,
and with its guess of a slot acknowledged. -/
structure Permits (command : WriteCommand) (args : WriteArgs) (request : Request) : Prop where
  requested : command.request = some request
  acceptable : request.call.Acceptable
  confirmed : args.yes = true
  acknowledged : command.guesses = true → args.unverifiedSlot = true

/-- Nothing is sent before the radio is used, and that is used only for what is
permitted and was announced, after a login and once. -/
structure Within (command : WriteCommand) (args : WriteArgs) (t : Traffic) : Prop where
  silent : t.contacted = false → t.sent = []
  permitted : t.contacted = true → ∃ request, command.Permits args request ∧
    announcement request.description ∈ t.announced ∧
    WriteOrder ⟨request.call.commandId, request.call.wire⟩ t.sent

variable {t : Traffic} {tool : Tool}

/-- An exit code of success is given only if the lock confirmed what was asked for. -/
def Tells (command : WriteCommand) (t : Traffic) : Except CliExn Nat → Prop
  | .ok exitCode => exitCode = exitOk → ∃ request login response, command.request = some request ∧
    LetIn login ∧ t.sent = login ++ [(⟨request.call.commandId, request.call.wire⟩, .ok response)]
  | .error _ => True

theorem within_of_silent {command : WriteCommand} {args : WriteArgs} (h : Silent [] t) : command.Within args t := by
  refine ⟨fun _ => h.sent, fun hcontacted => ?_⟩
  rw [h.contacted] at hcontacted
  cases hcontacted

theorem runWrite_within {command : WriteCommand} {args : WriteArgs} (request : Request)
    (hrequested : command.request = some request) (hguess : command.guesses = true → args.unverifiedSlot = true)
    {payload : CommandPayload} (hbuilt : request.call.build = .ok payload) {parse : Option (Response → BleResult Text)}
    {interactive : Option Text} {hlisted : payload.commandId ∈ writeCommands} (ht : Silent [] t) :
    Keeping (command.Within args)
      (runWrite tool args.toLoginArgs ⟨payload, request.description, parse, interactive, hlisted⟩ :
        ToolProgram prim Nat) command.Tells t := by
  obtain ⟨hacceptable, rfl⟩ := BuilderCall.build_eq_ok.mp hbuilt
  have hlinked : args.yes = true → ∀ l t, WriteOrder ⟨request.call.commandId, request.call.wire⟩ l →
      Linked [announcement request.description] l t → command.Within args t := by
    intro hyes l t hl ht
    refine ⟨fun hcontacted => ?_, fun _ => ⟨request, ⟨hrequested, hacceptable, hyes, hguess⟩, ?_, ht.sent ▸ hl⟩⟩
    · rw [ht.contacted] at hcontacted
      cases hcontacted
    · exact ht.announced _ List.mem_cons_self
  refine (runWrite_keeping (fun t => within_of_silent) hlinked ht).mono (fun t out h => ⟨h.1, ?_⟩)
  cases out with
  | error e => trivial
  | ok exitCode =>
    intro hok
    obtain ⟨login, response, hlogin, hsent⟩ := h.2 hok
    exact ⟨request, login, response, hrequested, hlogin, hsent⟩

theorem validatedWrite_keeping {command : WriteCommand} {args : WriteArgs} {c : BuilderCall}
    {hlisted : c.commandId ∈ writeCommands}
    {next : { p : CommandPayload // p.commandId ∈ writeCommands } → ToolProgram prim Nat} (ht : Silent [] t)
    (hnext : ∀ payload h, c.build = .ok payload → Keeping (command.Within args) (next ⟨payload, h⟩) command.Tells t) :
    Keeping (command.Within args) (validatedWrite c hlisted >>= next) command.Tells t := by
  unfold validatedWrite
  split
  case h_1 payload hbuilt => exact hnext payload _ hbuilt
  case h_2 => exact ⟨within_of_silent ht, trivial⟩

theorem requireSlotAcknowledgement_keeping {command : WriteCommand} {args : WriteArgs} {what : String}
    {next : Unit → ToolProgram prim Nat} (ht : Silent [] t)
    (hnext : args.unverifiedSlot = true → Keeping (command.Within args) (next ()) command.Tells t) :
    Keeping (command.Within args) (requireSlotAcknowledgement args what >>= next) command.Tells t := by
  unfold requireSlotAcknowledgement
  split_ifs with hflag
  · exact hnext hflag
  · exact ⟨within_of_silent ht, trivial⟩

/-- Below the slots both readings agree on, a command goes on with the flag alone. -/
theorem contestedSlot_keeping {command : WriteCommand} {args : WriteArgs} {slot : Int} {what : String}
    {next : Unit → ToolProgram prim Nat} (ht : Silent [] t)
    (hnext : (slot < firstUncontestedPinSlot → args.unverifiedSlot = true) →
      Keeping (command.Within args) (next ()) command.Tells t) :
    Keeping (command.Within args)
      (if slot < firstUncontestedPinSlot then requireSlotAcknowledgement args what >>= next else next ())
      command.Tells t := by
  by_cases hslot : slot < firstUncontestedPinSlot
  · rw [if_pos hslot]
    exact requireSlotAcknowledgement_keeping ht (fun hflag => hnext (fun _ => hflag))
  · rw [if_neg hslot]
    exact hnext (fun h => absurd h hslot)

theorem cmdPin_within {args : WriteArgs} {slot : Int} {action : PinAction} (ht : Silent [] t) :
    Keeping ((pin slot action).Within args) (cmdPin tool args slot action : ToolProgram prim Nat)
      (pin slot action).Tells t := by
  refine validatedWrite_keeping ht (fun _ _ _ => ?_)
  refine contestedSlot_keeping ht (fun hflag => ?_)
  have hguess : (pin slot action).guesses = true → args.unverifiedSlot = true :=
    fun hguesses => hflag (of_decide_eq_true hguesses)
  cases action with
  | clear =>
    exact validatedWrite_keeping ht
      (fun payload _ hbuilt => runWrite_within ⟨.pinCodeClear slot, _⟩ rfl hguess hbuilt ht)
  | set entry =>
    dsimp only
    split_ifs with hyes
    · have hsilent : ∀ t, Silent [] t → (pin slot (.set entry)).Within args t := fun t => within_of_silent
      refine keeping_bind (keeping_quiet (quiet_resolveLogin _) hsilent ht) (fun t login ht => ?_)
        (fun _ _ _ => trivial)
      refine keeping_bind (confirm_keeping _ login.description (pinPromptDescription slot) args.yes hsilent ht)
        (fun t _ ht => ?_) (fun _ _ _ => trivial)
      have hend : Silent [] t := ⟨ht.2.contacted, ht.2.sent, fun _ hl => by cases hl⟩
      exact ⟨hsilent t hend, fun h => absurd h (by decide)⟩
    · cases hread : readPin entry with
      | error e => exact ⟨within_of_silent ht, trivial⟩
      | ok digits =>
        have hrequested : (pin slot (.set entry)).request =
            some ⟨.pinCodeSet slot digits false, pinSetDescription slot digits⟩ := by
          rw [request, hread]
          rfl
        exact validatedWrite_keeping ht (fun payload _ hbuilt =>
          runWrite_within ⟨.pinCodeSet slot digits false, _⟩ hrequested hguess hbuilt ht)

theorem run_keeping (command : WriteCommand) (args : WriteArgs) (ht : Silent [] t) :
    Keeping (command.Within args) (command.run tool args : ToolProgram prim Nat) command.Tells t := by
  cases command with
  | operate lock =>
    exact validatedWrite_keeping ht (fun payload _ hbuilt => runWrite_within ⟨.ekeyOperate (ekeyOperation lock), operateDescription lock⟩ rfl
      (fun h => by cases h) hbuilt ht)
  | pin slot action => exact cmdPin_within ht
  | rfid slot action =>
    refine validatedWrite_keeping ht (fun payload _ hbuilt => ?_)
    cases action with
    | scan =>
      have hguess : (rfid slot .scan).guesses = true → args.unverifiedSlot = true := fun h => by cases h
      exact runWrite_within ⟨rfidCall slot .scan, rfidDescription slot .scan⟩ rfl hguess hbuilt ht
    | clear =>
      refine requireSlotAcknowledgement_keeping ht (fun hflag => ?_)
      exact runWrite_within ⟨rfidCall slot .clear, rfidDescription slot .clear⟩ rfl (fun _ => hflag) hbuilt ht
  | fingerprint slot action =>
    refine validatedWrite_keeping ht (fun payload _ hbuilt => ?_)
    cases action with
    | scan =>
      have hguess : (fingerprint slot .scan).guesses = true → args.unverifiedSlot = true := fun h => by cases h
      exact runWrite_within ⟨fingerprintCall slot .scan, fingerprintDescription slot .scan⟩ rfl hguess hbuilt ht
    | clear =>
      refine requireSlotAcknowledgement_keeping ht (fun hflag => ?_)
      exact runWrite_within ⟨fingerprintCall slot .clear, fingerprintDescription slot .clear⟩ rfl (fun _ => hflag)
        hbuilt ht

/-- At every moment of every run of a write, whatever is answered, fails or is
interrupted: the radio is used only for what was asked for, confirmed and
announced, the lock is sent a login and after it that one command, and success
is told only if the lock confirmed it. -/
theorem run_within {command : WriteCommand} {args : WriteArgs} {q : ToolProgram prim Nat}
    (hs : Steps listening .start (command.run tool args) t q) :
    command.Within args t ∧ ∀ out, q = ended out → command.Tells t out := by
  have hstart : Silent [] Traffic.start := ⟨rfl, rfl, fun _ hl => by cases hl⟩
  have hkept : Keeping (command.Within args) (command.run tool args : ToolProgram prim Nat) command.Tells .start :=
    run_keeping command args hstart
  refine ⟨(hkept.mono fun _ _ h => h.1).holds_of_steps hs, fun out hq => ?_⟩
  have hrest := hkept.of_steps hs
  subst hq
  cases out with
  | ok n => exact hrest.2
  | error e => exact hrest.2

/-- The lock goes along with everything. -/
def willing (c : CommandPayload) : Except Exn Response := .ok ⟨c.commandId.value, 1, 0, List.replicate challengeLength 0⟩

def listened (t : Traffic) (op : ToolOp Primitives.scalarOne) : ToolReply Primitives.scalarOne op × Traffic :=
  ((obliging willing (.start none []) op).1, t.next op (obliging willing (.start none []) op).1)

def unlockArgs : WriteArgs := ⟨⟨frontDoorAddress, true, none, true, false⟩, false, text "10"⟩

theorem run_within_unlock :
    ∃ t : Traffic, (operate false).Within unlockArgs t ∧ (operate false).Tells t (.ok exitOk) ∧
      t.sent.map (fun s => s.1.commandId) = [.userAuthBegin, .userAuthFinalize, .ekeyOperate] := by
  have hrun : Steps listening .start ((operate false).run frontDoorTool unlockArgs)
      (((operate false).run frontDoorTool unlockArgs).eval listened .start).2
      (ended (((operate false).run frontDoorTool unlockArgs).eval listened .start).1) := steps_eval (fun _ _ => rfl) _ _
  have hout : (((operate false).run frontDoorTool unlockArgs).eval listened .start).1 = .ok exitOk := by rfl
  obtain ⟨hwithin, htells⟩ := run_within hrun
  exact ⟨_, hwithin, htells _ (by rw [hout]), by rfl⟩

end WriteCommand

end OnestiLock.Cli
