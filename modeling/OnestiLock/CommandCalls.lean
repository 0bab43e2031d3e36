import OnestiLock.EnrollCommand

/-! The parts of the commands that neither talk to the lock nor touch a file. -/

namespace OnestiLock.Cli

open Python Json Program

variable {prim : Primitives}

/-- It names no file, changes none, and is no part of talking to the lock or of
counting failed logins. -/
def Calm : ToolOp prim → Prop
  | .say line => line.holds = none
  | .note (.start) | .note (.resume _) | .writeState _ _ | .send _ | .linkKeys | .generateKeyPair | .now
  | .recordFailedLogin _ => False
  | _ => True

section

variable {α : Type}

theorem calls_ioRaising (x : Except IoFault α) : (ioRaising x : ToolProgram prim α).Calls Calm := by
  cases x <;> trivial

theorem calls_exnRaising (x : Except Exn α) : (exnRaising x : ToolProgram prim α).Calls Calm := by
  cases x <;> trivial

theorem calls_cliRaising (x : Except CliExn α) : (cliRaising x : ToolProgram prim α).Calls Calm := by
  cases x <;> trivial

theorem calls_say {line : Line} (h : line.holds = none) : (say line : ToolProgram prim Unit).Calls Calm :=
  ⟨h, fun r => calls_ioRaising r⟩

theorem calls_sayAll (lines : List Text) : (sayAll lines : ToolProgram prim Unit).Calls Calm := by
  induction lines with
  | nil => trivial
  | cons line rest ih => exact (calls_say rfl).bind (fun _ => ih)

variable (tool : Tool)

theorem calls_findByAddress (address : Text) :
    (findByAddress tool address : ToolProgram prim (List (StoredLock prim))).Calls Calm := by
  refine ⟨trivial, fun listed => ?_⟩
  cases listed with
  | ok directory => exact calls_cliRaising _
  | error e => trivial

theorem calls_checkWritable : (checkWritable tool : ToolProgram prim Unit).Calls Calm := by
  refine ⟨trivial, fun written => ?_⟩
  cases written with
  | ok u => trivial
  | error fault => cases fault <;> trivial

theorem calls_confirm (address : Text) (login : Option Text) (steps : List Text) (yes : Bool) :
    (confirm address login steps yes : ToolProgram prim Bool).Calls Calm := by
  refine (calls_say rfl).bind (fun _ => (calls_say rfl).bind (fun _ => ?_))
  refine (calls_sayAll _).bind (fun _ => ?_)
  cases yes with
  | true => trivial
  | false => exact (calls_say rfl).bind (fun _ => trivial)

theorem calls_findStored (args : EnrollArgs) :
    (findStored tool args : ToolProgram prim (StoredLock prim)).Calls Calm := by
  unfold findStored
  cases args.state with
  | some path => exact ⟨trivial, fun file => calls_cliRaising _⟩
  | none =>
    refine (calls_findByAddress tool _).bind (fun found => ?_)
    rcases found with _ | ⟨stored, _ | ⟨other, rest⟩⟩ <;> trivial

theorem calls_finished (address : Argument) (out : Nat ⊕ Enrollment prim) :
    (finished tool address out).Calls Calm := by
  cases out with
  | inl exitCode => trivial
  | inr e =>
    refine Calls.bind (p := note .done) ⟨trivial, fun _ => trivial⟩ (fun _ => ?_)
    refine (calls_say rfl).bind (fun _ => (calls_say rfl).bind (fun _ => ?_))
    exact (calls_say rfl).bind (fun _ => (calls_say rfl).bind (fun _ => (calls_say rfl).bind (fun _ => trivial)))

theorem calls_note {n : EnrollNote prim} (h : Calm (.note n)) : (note n : ToolProgram prim Unit).Calls Calm :=
  ⟨h, fun _ => trivial⟩

theorem calls_finishWith (address : Argument) (exitCode : Nat) :
    (say (.finishWith address) >>= fun _ => pure exitCode : ToolProgram prim Nat).Calls Calm :=
  (calls_say rfl).bind (fun _ => trivial)

theorem calls_enrollmentKeyless (step : EnrollmentStep) (reason : BleError) :
    (enrollmentKeyless step reason : ToolProgram prim Nat).Calls Calm := by
  have hnote : (note (.stopped step false) : ToolProgram prim Unit).Calls Calm := calls_note trivial
  refine hnote.bind (fun _ => (calls_say rfl).bind (fun _ => (calls_say rfl).bind (fun _ => ?_)))
  exact (calls_say rfl).bind (fun _ => trivial)

/-! Counting failed logins. -/

/-- Calm, or the recording of a failed login and its moment. -/
def Recording (address : Text) : ToolOp prim → Prop
  | .recordFailedLogin entry => entry.address = address
  | .now => True
  | op => Calm op

theorem recording_of_calm {address : Text} {op : ToolOp prim} (hop : Calm op) : Recording address op := by
  cases op with
  | recordFailedLogin entry => exact absurd hop id
  | now => trivial
  | _ => exact hop

theorem calls_utcNow (address : Text) : (utcNow : ToolProgram prim DateTime).Calls (Recording address) :=
  ⟨trivial, fun _ => trivial⟩

theorem calls_checkLoginBudget (place address : Text) (forceLogin : Bool) :
    (checkLoginBudget tool address forceLogin : ToolProgram prim Unit).Calls (Recording place) := by
  refine (calls_utcNow place).bind (fun now => ?_)
  have hread : (.call .readFailedLogins exnRaising : ToolProgram prim FailedLogins).Calls Calm :=
    ⟨trivial, fun r => calls_exnRaising r⟩
  refine (hread.mono (fun _ => recording_of_calm)).bind (fun log => ?_)
  dsimp only
  split_ifs
  · trivial
  · trivial
  · exact ⟨trivial, fun r => by cases r <;> trivial⟩

theorem calls_recordFailedLogin (address : Text) (credential : LoginKind) (status : String) :
    (recordFailedLogin address credential status : ToolProgram prim Unit).Calls (Recording address) :=
  (calls_utcNow address).bind (fun _ => ⟨rfl, fun r => by cases r <;> trivial⟩)

theorem calls_recordLoginFailures (address : Text) (kind : LoginKind) (e : BleError) (context : Option Exn) :
    (recordLoginFailures address kind e context : ToolProgram prim Unit).Calls (Recording address) := by
  have hlast : (recordFailedLogin address kind (failureStatus e) : ToolProgram prim Unit).Calls (Recording address) :=
    calls_recordFailedLogin address kind (failureStatus e)
  unfold recordLoginFailures
  split
  · exact (calls_recordFailedLogin _ _ _).bind (fun _ => hlast)
  · exact hlast

end

end OnestiLock.Cli
