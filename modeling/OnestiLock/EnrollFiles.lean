import OnestiLock.CommandCalls
import OnestiLock.CommandRuns
import OnestiLock.EnrollmentCalls
import OnestiLock.StateFiles

/-! What the state file that an enrollment names holds when the command ends. -/

namespace OnestiLock.Cli

open Python Json Program

variable {prim : Primitives}

/-- What leaves the files, the enrollment and the lines that name a file alone. -/
structure Frame (w after : World prim) : Prop where
  files : after.files = w.files
  wrote : after.wrote = w.wrote
  seen : after.seen = w.seen
  said : ∀ line ∈ after.said, line ∈ w.said ∨ line.holds = none

theorem Frame.refl (w : World prim) : Frame w w := ⟨rfl, rfl, rfl, fun _ h => Or.inl h⟩

theorem Frame.made (w : World prim) : Frame w w.made := ⟨rfl, rfl, rfl, fun _ h => Or.inl h⟩

theorem Frame.saying (w : World prim) {line : Line} (h : line.holds = none) : Frame w (w.saying line) := by
  refine ⟨rfl, rfl, rfl, fun other hother => ?_⟩
  rcases List.mem_append.mp hother with hold | hnew
  · exact Or.inl hold
  · rw [List.mem_singleton.mp hnew]
    exact Or.inr h

theorem recording_frame {address : Text} {w after : World prim} {op : ToolOp prim} {reply : ToolReply prim op}
    (hop : Recording address op) (h : surroundings w op reply after) : Frame w after := by
  have hsame : after = w → Frame w after := fun he => he ▸ Frame.refl w
  cases op with
  | say line =>
    cases reply with
    | ok u => exact (show after = w.saying line from h) ▸ Frame.saying w hop
    | error fault => exact hsame h.2
  | warn message =>
    cases reply with
    | ok u => exact hsame h
    | error fault => exact hsame h.2
  | note n =>
    cases n with
    | start => exact absurd hop id
    | resume stored => exact absurd hop id
    | _ => exact hsame h
  | listState =>
    cases reply with
    | ok listed => exact hsame h.2
    | error x => exact hsame h
  | checkWritable =>
    cases reply with
    | ok u => exact (show after = w.made from h) ▸ Frame.made w
    | error fault =>
      rcases h.2 with rfl | rfl
      · exact Frame.refl _
      · exact Frame.made w
  | writeState name data => exact absurd hop id
  | readFailedLogins =>
    cases reply with
    | ok log => exact hsame h.2
    | error x => exact hsame h
  | recordFailedLogin entry =>
    cases reply with
    | ok u =>
      obtain rfl : after = w.recorded entry := h
      exact ⟨rfl, rfl, rfl, fun _ hl => Or.inl hl⟩
    | error fault => rcases h.2 with rfl | rfl <;> exact ⟨rfl, rfl, rfl, fun _ hl => Or.inl hl⟩
  | send command => exact absurd hop id
  | linkKeys => exact absurd hop id
  | generateKeyPair => exact absurd hop id
  | now =>
    obtain rfl : after = w.timed reply.val := h
    exact ⟨rfl, rfl, rfl, fun _ hl => Or.inl hl⟩
  | _ => exact hsame h

/-! The files of a run. -/

section

variable (tool : Tool) (address : Argument) (before : Directory)

/-- A file is as it was, or it was put into place; and what was put last is the
enrollment that was saved last. -/
structure Kept (w : World prim) : Prop where
  files : ∀ f ∈ w.files, (f ∈ before ∧ f.1 ∉ w.wrote) ∨
    (f.1 ∈ w.wrote ∧ ∃ data : StateData prim, data.Legible ∧ f.2 = .ok data.file)
  others : ∀ f ∈ before, f.1 ∉ w.wrote → f ∈ w.files
  last : w.wrote ≠ [] → ∀ e ∈ w.seen.saved, ∃ data : StateData prim, data.Legible ∧ data.enrollment = e ∧
    data.address = some address.val ∧ (stateName tool.sha256 e.deviceId, .ok data.file) ∈ w.files

/-- Nothing was put into place, and no line names a file. -/
structure Untouched (w : World prim) : Prop where
  files : w.files = before
  wrote : w.wrote = []
  quiet : ∀ line ∈ w.said, line.holds = none

/-- A line that names a file names that of the enrollment saved last, which has
exactly the confirmed steps. -/
def Named (w : World prim) : Prop :=
  ∀ line ∈ w.said, ∀ path ∈ line.holds, ∃ e ∈ w.seen.saved, path = pathFor tool e ∧
    e.completed = w.seen.confirmed

structure Told (w : World prim) : Prop where
  kept : Kept tool address before w
  named : Named tool w

/-- After an attempt to save, only the files can have changed. -/
structure Saved (w after : World prim) : Prop where
  said : after.said = w.said
  kept : Kept tool address before after
  keyPair : after.seen.keyPair = w.seen.keyPair
  named : after.seen.named = w.seen.named
  confirmed : after.seen.confirmed = w.seen.confirmed

/-- Ready to name this enrollment once it is saved: no line names a file yet. -/
structure Ready (e : Enrollment prim) (w : World prim) : Prop where
  kept : Kept tool address before w
  quiet : ∀ line ∈ w.said, line.holds = none
  confirmed : e.completed = w.seen.confirmed

/-- It is saved, too. -/
structure Stored (e : Enrollment prim) (w : World prim) : Prop extends Ready tool address before e w where
  saved : w.seen.saved = some e

variable {tool address before} {w after : World prim} {e : Enrollment prim}

theorem Untouched.frame (h : Untouched before w) (hf : Frame w after) : Untouched before after := by
  refine ⟨hf.files.trans h.files, hf.wrote.trans h.wrote, fun line hline => ?_⟩
  rcases hf.said line hline with hold | hnone
  · exact h.quiet line hold
  · exact hnone

theorem Untouched.kept (h : Untouched before w) : Kept tool address before w := by
  refine ⟨fun f hf => ?_, fun f hf _ => ?_, fun hne => absurd h.wrote hne⟩
  · left
    rw [h.wrote]
    exact ⟨h.files ▸ hf, List.not_mem_nil⟩
  · rw [h.files]
    exact hf

theorem named_of_quiet (h : ∀ line ∈ w.said, line.holds = none) : Named tool w := by
  intro line hline path hpath
  rw [h line hline] at hpath
  cases hpath

theorem Untouched.told (h : Untouched before w) : Told tool address before w :=
  ⟨h.kept, named_of_quiet h.quiet⟩

theorem Kept.of_same (h : Kept tool address before w) (hfiles : after.files = w.files)
    (hwrote : after.wrote = w.wrote) (hsaved : after.seen.saved = w.seen.saved) : Kept tool address before after := by
  constructor
  · rw [hfiles, hwrote]
    exact h.files
  · rw [hfiles, hwrote]
    exact h.others
  · rw [hfiles, hwrote, hsaved]
    exact h.last

theorem Kept.put (h : Kept tool address before w) {data : StateData prim} (hlegible : data.Legible)
    (haddress : data.address = some address.val) :
    Kept tool address before (w.put (stateName tool.sha256 data.enrollment.deviceId) data) := by
  have hfiles : (w.put (stateName tool.sha256 data.enrollment.deviceId) data).files =
      (stateName tool.sha256 data.enrollment.deviceId, .ok data.file) ::
        w.files.filter (fun f => f.1 != stateName tool.sha256 data.enrollment.deviceId) := rfl
  constructor
  · rw [hfiles]
    intro f hf
    rcases List.mem_cons.mp hf with rfl | hf
    · exact Or.inr ⟨List.mem_cons_self, data, hlegible, rfl⟩
    · obtain ⟨hf, hne⟩ := List.mem_filter.mp hf
      rcases h.files f hf with ⟨hold, hwrote⟩ | ⟨hwrote, hput⟩
      · refine Or.inl ⟨hold, fun hmem => ?_⟩
        rcases List.mem_cons.mp hmem with heq | hmem
        · simp [heq] at hne
        · exact hwrote hmem
      · exact Or.inr ⟨List.mem_cons_of_mem _ hwrote, hput⟩
  · rw [hfiles]
    intro f hf hwrote
    have hne : f.1 ≠ stateName tool.sha256 data.enrollment.deviceId := fun he => hwrote (he ▸ List.mem_cons_self)
    have hold : f ∈ w.files := h.others f hf (fun hmem => hwrote (List.mem_cons_of_mem _ hmem))
    exact List.mem_cons_of_mem _ (List.mem_filter.mpr ⟨hold, by simpa using hne⟩)
  · intro _ e he
    obtain rfl : data.enrollment = e := Option.some.inj he
    rw [hfiles]
    exact ⟨data, hlegible, rfl, haddress, List.mem_cons_self⟩

theorem Told.frame (h : Told tool address before w) (hf : Frame w after) : Told tool address before after := by
  refine ⟨h.kept.of_same hf.files hf.wrote (congrArg Seen.saved hf.seen), fun line hline path hpath => ?_⟩
  rcases hf.said line hline with hold | hnone
  · rw [hf.seen]
    exact h.named line hold path hpath
  · rw [hnone] at hpath
    cases hpath

/-- Any line but a named file is a frame; a named file has to be the right one. -/
theorem Told.saying (h : Told tool address before w) {line : Line} (hline : ∀ path ∈ line.holds,
    ∃ e ∈ w.seen.saved, path = pathFor tool e ∧ e.completed = w.seen.confirmed) :
    Told tool address before (w.saying line) := by
  refine ⟨h.kept.of_same rfl rfl rfl, fun other hother => ?_⟩
  rcases List.mem_append.mp hother with hold | hnew
  · exact h.named other hold
  · rw [List.mem_singleton.mp hnew]
    exact hline

/-! What the parts of a command keep. -/

variable {α : Type} {p : ToolProgram prim α}

theorem recording_following {place : Text} {inv : World prim → Prop} (h : p.Calls (Recording place))
    (hframe : ∀ w after, inv w → Frame w after → inv after) (hw : inv w) : Following p (fun w _ => inv w) w :=
  h.ensures (fun _ _ _ _ => trivial) (fun _ _ _ after hs hop hr => hframe _ after hs (recording_frame hop hr)) hw

theorem calm_following {inv : World prim → Prop} (h : p.Calls Calm)
    (hframe : ∀ w after, inv w → Frame w after → inv after) (hw : inv w) : Following p (fun w _ => inv w) w := by
  have hrecording : p.Calls (Recording []) := h.mono (fun _ hop => recording_of_calm hop)
  exact recording_following hrecording hframe hw

theorem calm_untouched (h : p.Calls Calm) (hw : Untouched before w) : Following p (fun w _ => Untouched before w) w :=
  calm_following h (fun _ _ => Untouched.frame) hw

theorem calm_told (h : p.Calls Calm) (hw : Told tool address before w) :
    Following p (fun w _ => Told tool address before w) w :=
  calm_following h (fun _ _ => Told.frame) hw

theorem say_told {line : Line} (hw : Told tool address before w) (hline : ∀ path ∈ line.holds,
    ∃ e ∈ w.seen.saved, path = pathFor tool e ∧ e.completed = w.seen.confirmed) :
    Following (say line) (fun after _ => Told tool address before after ∧ after.seen = w.seen) w := by
  refine ⟨trivial, fun r after hr => ?_⟩
  cases r with
  | ok u =>
    obtain rfl : after = w.saying line := hr
    exact ⟨hw.saying hline, rfl⟩
  | error fault =>
    obtain rfl : after = w := hr.2
    exact ⟨hw, rfl⟩

theorem trySave_following (e : Enrollment prim) (hw : Kept tool address before w) :
    Following (trySave tool e address) (fun after out => ∃ written, out = .ok written ∧
      Saved tool address before w after ∧
        match written with
        | .ok path => path = pathFor tool e ∧ after.seen = w.seen.next (.save e) (.ok ())
        | .error fault => fault.AtOnce) w := by
  refine ⟨trivial, fun saved first hfirst => ?_⟩
  obtain rfl : first = w := hfirst
  have hlegible : (⟨some address.val, saved.val, e⟩ : StateData prim).Legible :=
    ⟨fun a ha => Option.some.inj ha ▸ address.property, unpaired_ascii saved.property⟩
  have hput : Kept tool address before
      (first.put (stateName tool.sha256 e.deviceId) ⟨some address.val, saved.val, e⟩) := hw.put hlegible rfl
  have hmade : Kept tool address before first.made := hw.of_same rfl rfl rfl
  refine ⟨trivial, fun r after hr => ?_⟩
  cases r with
  | ok u =>
    obtain rfl : after = first.put _ _ := hr
    exact ⟨_, rfl, ⟨rfl, hput, rfl, rfl, rfl⟩, rfl, rfl⟩
  | error fault =>
    refine ⟨_, rfl, ?_, hr.1⟩
    rcases hr.2 with rfl | rfl | ⟨-, rfl⟩
    · exact ⟨rfl, hw, rfl, rfl, rfl⟩
    · exact ⟨rfl, hmade, rfl, rfl, rfl⟩
    · exact ⟨rfl, hput, rfl, rfl, rfl⟩

/-! The ends of an enrollment name what was saved. -/

theorem Frame.quiet (hf : Frame w after) (h : ∀ line ∈ w.said, line.holds = none) :
    ∀ line ∈ after.said, line.holds = none := by
  intro line hline
  rcases hf.said line hline with hold | hnone
  · exact h line hold
  · exact hnone

theorem Ready.frame (h : Ready tool address before e w) (hf : Frame w after) : Ready tool address before e after := by
  refine ⟨h.kept.of_same hf.files hf.wrote (congrArg Seen.saved hf.seen), hf.quiet h.quiet, ?_⟩
  rw [hf.seen]
  exact h.confirmed

theorem Stored.frame (h : Stored tool address before e w) (hf : Frame w after) :
    Stored tool address before e after :=
  ⟨h.toReady.frame hf, (congrArg Seen.saved hf.seen).trans h.saved⟩

theorem Ready.told (h : Ready tool address before e w) : Told tool address before w :=
  ⟨h.kept, named_of_quiet h.quiet⟩

theorem Ready.saved (h : Ready tool address before e w) (hs : Saved tool address before w after) :
    Ready tool address before e after :=
  ⟨hs.kept, fun line hline => h.quiet line (hs.said ▸ hline), h.confirmed.trans hs.confirmed.symm⟩

theorem ready_trySave (h : Ready tool address before e w) :
    Following (trySave tool e address) (fun after out =>
      match out with
      | .ok (.ok path) => path = pathFor tool e ∧ Stored tool address before e after
      | .ok (.error _) => Ready tool address before e after
      | .error _ => False) w := by
  refine (trySave_following e h.kept).mono ?_
  rintro after out ⟨written, rfl, hsaved, hwritten⟩
  cases written with
  | ok path => exact ⟨hwritten.1, h.saved hsaved, by rw [hwritten.2]; rfl⟩
  | error fault => exact h.saved hsaved

theorem stored_told {line : Line} (h : Stored tool address before e w) {rest : ToolProgram prim α}
    (hline : ∀ path ∈ line.holds, path = pathFor tool e) (hrest : rest.Calls Calm) :
    Following (say line >>= fun _ => rest) (fun after _ => Told tool address before after) w := by
  have hsay : Following (say line) (fun after _ => Told tool address before after ∧ after.seen = w.seen) w :=
    say_told h.told (fun path hpath => ⟨e, h.saved, hline path hpath, h.confirmed⟩)
  exact hsay.bind (fun after _ hin => calm_told hrest hin.1) (fun after x hin => hin.1)

theorem ready_say {line : Line} {rest : ToolProgram prim α} (hw : Ready tool address before e w)
    (hline : line.holds = none) (hrest : ∀ after, Ready tool address before e after →
      Following rest (fun after _ => Told tool address before after) after) :
    Following (say line >>= fun _ => rest) (fun after _ => Told tool address before after) w := by
  refine (calm_following (calls_say hline) (fun _ _ hin hf => Ready.frame hin hf) hw).bind ?_ ?_
  · exact fun after _ hin => hrest after hin
  · exact fun after x hin => hin.told

theorem stored_note {n : EnrollNote prim} {rest : ToolProgram prim α} (hw : Stored tool address before e w)
    (hn : Calm (.note n)) (hrest : ∀ after, Stored tool address before e after →
      Following rest (fun after _ => Told tool address before after) after) :
    Following (note n >>= fun _ => rest) (fun after _ => Told tool address before after) w := by
  refine (calm_following (calls_note hn) (fun _ _ hin hf => Stored.frame hin hf) hw).bind ?_ ?_
  · exact fun after _ hin => hrest after hin
  · exact fun after x hin => hin.told

theorem enrollmentNotSaved_told {step : EnrollmentStep} {reason : Exn} (h : Ready tool address before e w) :
    Following (enrollmentNotSaved tool address step e reason) (fun after _ => Told tool address before after) w := by
  refine ready_say h rfl (fun w hw => ready_say hw rfl (fun w hw => (ready_trySave hw).bind ?_ ?_))
  · rintro after (fault | path) hin
    · cases fault with
      | raised x => exact hin.told
      | os strerror =>
        have hnote : (note (.stopped step false) : ToolProgram prim Unit).Calls Calm := calls_note trivial
        exact calm_told (hnote.bind (fun _ => (calls_say rfl).bind (fun _ => trivial))) hin.told
    · obtain ⟨rfl, hstored⟩ := hin
      refine stored_note hstored trivial (fun after hin => ?_)
      exact stored_told hin (fun path hpath => (Option.some.inj hpath).symm) (calls_finishWith address exitFailed)
  · exact fun after x hin => absurd hin id

theorem enrollmentPartial_told {step : EnrollmentStep} {reason : BleError} (h : Ready tool address before e w) :
    Following (enrollmentPartial tool address step e reason) (fun after _ => Told tool address before after) w := by
  have hsaved : Following (saveState tool e address) (fun after out =>
      match out with
      | .ok path => path = pathFor tool e ∧ Stored tool address before e after
      | .error _ => Told tool address before after) w := by
    refine (ready_trySave h).bind ?_ ?_
    · rintro after (fault | path) hin
      · exact hin.told
      · exact hin
    · exact fun after x hin => absurd hin id
  refine hsaved.bind ?_ (fun after x hin => hin)
  rintro after path ⟨rfl, hstored⟩
  refine stored_note hstored trivial (fun after hin => ?_)
  refine stored_told hin (fun path hpath => (Option.some.inj hpath).symm) ?_
  exact (calls_say rfl).bind (fun _ => (calls_say rfl).bind (fun _ => calls_finishWith address exitFailed))

theorem enrollmentInterrupted_told {last : Option (Enrollment prim)} (hkept : Kept tool address before w)
    (hquiet : ∀ line ∈ w.said, line.holds = none) (hsaved : w.seen.saved = last)
    (hlast : ∀ e ∈ last, e.completed = w.seen.confirmed) :
    Following (enrollmentInterrupted tool address last) (fun after _ => Told tool address before after) w := by
  cases last with
  | none =>
    have hnote : (note (.interrupted none) : ToolProgram prim Unit).Calls Calm := calls_note trivial
    exact calm_told (hnote.bind (fun _ => calls_say rfl)) ⟨hkept, named_of_quiet hquiet⟩
  | some e =>
    have hstored : Stored tool address before e w := ⟨⟨hkept, hquiet, hlast e rfl⟩, hsaved⟩
    refine stored_note hstored trivial (fun after hin => ?_)
    exact stored_told hin (fun path hpath => (Option.some.inj hpath).symm) (calls_say rfl)

/-! The library's run and the tool's see the same lock. -/

/-- They agree on what decides which steps are confirmed. -/
structure Agrees (seen other : Seen prim) : Prop where
  keyPair : other.keyPair = seen.keyPair
  named : other.named = seen.named
  confirmed : other.confirmed = seen.confirmed

theorem Agrees.name {seen other : Seen prim} (h : Agrees seen other) (command : CommandPayload) :
    Agrees (seen.name command) (other.name command) := by
  by_cases hc : command.commandId = .userAuthBegin
  · simp only [Seen.name, if_pos hc]
    exact ⟨h.keyPair, rfl, h.confirmed⟩
  · simp only [Seen.name, if_neg hc]
    exact h

theorem Agrees.answered {seen other : Seen prim} (h : Agrees seen other) (command : CommandPayload)
    (reply : Except Exn Response) :
    Agrees (seen.next (.send command) reply) (other.next (.send command) reply) := by
  have hname := h.name command
  cases reply with
  | error x => exact hname
  | ok response =>
    have hconfirms : (other.name command).confirms command response = (seen.name command).confirms command response := by
      simp only [Seen.confirms, hname.named, hname.confirmed, hname.keyPair]
    simp only [Seen.next, hconfirms]
    cases (seen.name command).confirms command response with
    | none => exact hname
    | some step => exact ⟨hname.keyPair, hname.named, congrArg (insert step) hname.confirmed⟩

theorem saved_answered (seen : Seen prim) (command : CommandPayload) (reply : Except Exn Response) :
    (seen.next (.send command) reply).saved = seen.saved := by
  have hname : (seen.name command).saved = seen.saved := (Seen.name_same seen command).saved
  cases reply with
  | error x => exact hname
  | ok response =>
    simp only [Seen.next]
    cases (seen.name command).confirms command response with
    | none => exact hname
    | some step => exact hname

/-- The library's own view of its run: no save is cancelled. -/
def attending : Surroundings (EnrollmentOp prim) (EnrollmentReply prim) (Seen prim) := fun seen op reply after =>
  after = seen.next op reply ∧
    ∀ e, (⟨op, reply⟩ : (op : EnrollmentOp prim) × EnrollmentReply prim op) ≠ ⟨.save e, .error .cancelled⟩

theorem observes_attending : Seen.Observes (attending : Surroundings _ _ (Seen prim)) :=
  fun _ _ _ _ h => h.1

theorem synchronous_attending : Seen.Synchronous (attending : Surroundings _ _ (Seen prim)) :=
  fun _ e _ h => h.2 e rfl

/-- It sees the lock, and whether a save failed. -/
def libraryView : Surroundings (EnrollmentOp prim) (EnrollmentReply prim) (Seen prim × Bool) :=
  fun v op reply after => attending v.1 op reply after.1 ∧ tripping v.2 op reply after.2

variable (tool address before) in
/-- The library's view, what the saver wrote last, and the tool's view. -/
structure Related (v : Seen prim × Bool) (last : Option (Enrollment prim)) (w : World prim) : Prop where
  kept : Kept tool address before w
  quiet : ∀ line ∈ w.said, line.holds = none
  agrees : Agrees v.1 w.seen
  saved : v.2 = false → w.seen.saved = last ∧ v.1.saved = last

variable {v : Seen prim × Bool} {last : Option (Enrollment prim)}

theorem Related.told (h : Related tool address before v last w) : Told tool address before w :=
  ⟨h.kept, named_of_quiet h.quiet⟩

theorem Related.carried {v' : Seen prim × Bool} (h : Related tool address before v last w)
    (hfiles : after.files = w.files) (hwrote : after.wrote = w.wrote) (hsaid : after.said = w.said)
    (hsaved : after.seen.saved = w.seen.saved) (hagrees : Agrees v'.1 after.seen) (htripped : v'.2 = v.2)
    (hlast : v'.1.saved = v.1.saved) : Related tool address before v' last after := by
  refine ⟨h.kept.of_same hfiles hwrote hsaved, fun line hline => h.quiet line (hsaid ▸ hline), hagrees, ?_⟩
  intro hv
  rw [hsaved, hlast]
  exact h.saved (htripped ▸ hv)

variable (tool address before v) in
/-- An operation of the library, carried out. -/
def Carried (op : EnrollmentOp prim) (after : World prim) :
    Except CliExn (EnrollmentReply prim op × Option (Enrollment prim)) → Prop
  | .ok r => ∃ v', libraryView v op r.1 v' ∧ Related tool address before v' r.2 after
  | .error _ => Told tool address before after

theorem saver_following {enrollment : Enrollment prim} (h : Related tool address before v last w) :
    Following (saver tool address last enrollment) (Carried tool address before v (.save enrollment)) w := by
  have hfail : ∀ (x : Exn) (after : World prim) (last' : Option (Enrollment prim)), x ≠ .cancelled →
      Kept tool address before after → (∀ line ∈ after.said, line.holds = none) → Agrees v.1 after.seen →
      ∃ v', libraryView v (.save enrollment) (.error x) v' ∧ Related tool address before v' last' after := by
    intro x after last' hx hkept hquiet hagrees
    refine ⟨(v.1.next (.save enrollment) (.error x), true), ⟨⟨rfl, ?_⟩, hx, rfl⟩, hkept, hquiet, ?_, ?_⟩
    · rintro e ⟨⟩
      exact hx rfl
    · exact ⟨hagrees.keyPair, hagrees.named, hagrees.confirmed⟩
    · rintro ⟨⟩
  refine (trySave_following enrollment h.kept).bind ?_ (fun after x hin => ?_)
  · rintro after written ⟨_, ⟨⟩, hsaved, hwritten⟩
    have hquiet : ∀ line ∈ after.said, line.holds = none := fun line hline => h.quiet line (hsaved.said ▸ hline)
    have hagrees : Agrees v.1 after.seen := ⟨hsaved.keyPair.trans h.agrees.keyPair,
      hsaved.named.trans h.agrees.named, hsaved.confirmed.trans h.agrees.confirmed⟩
    cases written with
    | error fault =>
      refine hfail fault.exn after last ?_ hsaved.kept hquiet hagrees
      cases fault with
      | os strerror => simp [IoFault.exn]
      | raised x => exact hwritten
    | ok path =>
      obtain ⟨-, hseen⟩ := hwritten
      have hdone : ∀ last : World prim, last.files = after.files → last.wrote = after.wrote →
          last.seen = after.seen → (∀ line ∈ last.said, line.holds = none) →
          ∃ v', libraryView v (.save enrollment) (.ok ()) v' ∧
            Related tool address before v' (some enrollment) last := by
        intro final hfiles hwrote hsame hquiet
        refine ⟨(v.1.next (.save enrollment) (.ok ()), v.2), ⟨⟨rfl, ?_⟩, rfl⟩, ?_, hquiet, ?_, ?_⟩
        · rintro e ⟨⟩
        · exact hsaved.kept.of_same hfiles hwrote (congrArg Seen.saved hsame)
        · rw [hsame]
          exact ⟨hagrees.keyPair, hagrees.named, hagrees.confirmed⟩
        · intro _
          rw [hsame, hseen]
          exact ⟨rfl, rfl⟩
      refine ⟨trivial, fun _ noted hnoted => ?_⟩
      obtain rfl : noted = after := hnoted
      refine ⟨trivial, fun said final hsay => ?_⟩
      cases said with
      | ok u =>
        obtain rfl : final = noted.saying _ := hsay
        refine hdone _ rfl rfl rfl ?_
        exact (Frame.saying noted (by rfl)).quiet hquiet
      | error fault =>
        obtain ⟨honce, rfl⟩ := hsay
        cases fault with
        | os strerror => exact hdone final rfl rfl rfl hquiet
        | raised x => exact hfail x final (some enrollment) honce hsaved.kept hquiet hagrees
  · obtain ⟨written, hout, -⟩ := hin
    cases hout

theorem carry_following {op : EnrollmentOp prim} (h : Related tool address before v last w) :
    Following (carry tool address last op) (Carried tool address before v op) w := by
  have hstill : ∀ (op : EnrollmentOp prim) (r : EnrollmentReply prim op) (after : World prim),
      (∀ e, op ≠ .save e) → after.files = w.files → after.wrote = w.wrote → after.said = w.said →
      after.seen.saved = w.seen.saved → Agrees (v.1.next op r) after.seen → (v.1.next op r).saved = v.1.saved →
      tripping v.2 op r v.2 →
      ∃ v', libraryView v op r v' ∧ Related tool address before v' last after := by
    intro op r after hop hfiles hwrote hsaid hsaved hagrees hlast htripping
    refine ⟨(v.1.next op r, v.2), ⟨⟨rfl, ?_⟩, htripping⟩, ?_⟩
    · rintro e ⟨⟩
      exact hop e rfl
    · exact h.carried hfiles hwrote hsaid hsaved hagrees rfl hlast
  cases op with
  | send command =>
    refine ⟨trivial, fun r after hr => ?_⟩
    obtain ⟨handed, -, rfl⟩ : ∃ handed, (isAnswer r = true → handed = true) ∧ after = w.answered handed command r := hr
    exact hstill (.send command) r _ (by simp) rfl rfl rfl (saved_answered _ _ _) (h.agrees.answered command r)
      (saved_answered _ _ _) rfl
  | linkKeys =>
    refine ⟨trivial, fun r after hr => ?_⟩
    obtain rfl : after = w.settled r := hr
    cases r with
    | ok keys => exact hstill .linkKeys (.ok keys) _ (by simp) rfl rfl rfl rfl h.agrees rfl rfl
    | error x => exact hstill .linkKeys (.error x) _ (by simp) rfl rfl rfl rfl h.agrees rfl rfl
  | newDeviceId =>
    refine ⟨trivial, fun r after hr => ?_⟩
    obtain rfl : after = w := hr
    exact hstill .newDeviceId r _ (by simp) rfl rfl rfl rfl h.agrees rfl rfl
  | keyPairFactory =>
    refine ⟨trivial, fun pair after hr => ?_⟩
    obtain rfl : after = w.keyed pair := hr
    exact hstill .keyPairFactory (.ok pair) _ (by simp) rfl rfl rfl rfl
      ⟨rfl, h.agrees.named, h.agrees.confirmed⟩ rfl rfl
  | now =>
    refine ⟨trivial, fun r after hr => ?_⟩
    obtain rfl : after = w.timed r.val := hr
    exact hstill .now r _ (by simp) rfl rfl rfl rfl h.agrees rfl rfl
  | save enrollment => exact saver_following h

/-- How the library's run ends, in its own view. -/
def Ended (v : Seen prim × Bool) (out : Except (EnrollmentExn prim) (Enrollment prim)) : Prop :=
  v.1.Exact out ∧ (v.2 = true → out ≠ .error (.plain .cancelled))

theorem map_told {p : ToolProgram prim Nat}
    (h : Following p (fun after _ => Told tool address before after) w) :
    Following (Sum.inl <$> p : ToolProgram prim (Nat ⊕ Enrollment prim))
      (fun after _ => Told tool address before after) w :=
  h.bind (fun _ _ hin => hin) (fun _ _ hin => hin)

theorem handle_told {kind : LoginKind} {refusal : String → String}
    {out : Except (Raised prim) (Enrollment prim)} (h : Related tool address before v last w)
    (hend : Ended v (out.mapError Raised.exn)) :
    Following (handle tool address kind refusal last out) (fun after _ => Told tool address before after) w := by
  obtain ⟨hexact, htripped⟩ := hend
  have hready : ∀ e, e.completed = v.1.confirmed → Ready tool address before e w :=
    fun e he => ⟨h.kept, h.quiet, he.trans h.agrees.confirmed.symm⟩
  cases out with
  | ok e => exact h.told
  | error raised =>
    obtain ⟨exn, context⟩ := raised
    cases exn with
    | notSaved step e reason => exact map_told (enrollmentNotSaved_told (hready e (hexact.notSaved step e reason rfl)))
    | stopped step enrollment reason =>
      cases enrollment with
      | none => exact map_told (calm_told (calls_enrollmentKeyless step reason) h.told)
      | some e => exact map_told (enrollmentPartial_told (hready e (hexact.stopped step e reason rfl)))
    | plain x =>
      cases x with
      | cancelled =>
        have hv : v.2 = false := by
          cases hv : v.2 with
          | false => rfl
          | true => exact absurd rfl (htripped hv)
        obtain ⟨hsaved, hlast⟩ := h.saved hv
        have hcompleted : ∀ e ∈ last, e.completed = w.seen.confirmed := by
          intro e he
          rw [h.agrees.confirmed]
          exact hexact.cancelled rfl e (hlast ▸ he)
        exact (enrollmentInterrupted_told h.kept h.quiet hsaved hcompleted).bind (fun _ _ hin => hin)
          (fun _ _ hin => hin)
      | other name => exact h.told
      | ble b =>
        cases b with
        | operation status command =>
          exact recording_following ((calls_recordLoginFailures _ _ _ _).bind (fun _ => trivial))
            (fun _ _ => Told.frame) h.told
        | _ => exact h.told

theorem hosted_told {ε' : Type} {p : Program (EnrollmentOp prim) (EnrollmentReply prim) ε' (Enrollment prim)}
    {f : Option (Enrollment prim) → Except ε' (Enrollment prim) → ToolProgram prim (Nat ⊕ Enrollment prim)}
    {guard : Seen prim × Bool → EnrollmentOp prim → Prop}
    {post : Seen prim × Bool → Except ε' (Enrollment prim) → Prop} (hp : p.Ensures libraryView guard post v)
    (h : Related tool address before v last w)
    (hend : ∀ v last w out, Related tool address before v last w → post v out →
      Following (f last out) (fun after _ => Told tool address before after) w) :
    Following (p.host (carry tool address) last f) (fun after _ => Told tool address before after) w := by
  refine hp.host ?_ hend h
  intro v last w op hrelated _
  refine (carry_following hrelated).mono (fun after out hin => ?_)
  cases out with
  | ok r => exact hin
  | error x => exact hin

/-! The commands. -/

theorem Untouched.noted (h : Untouched before w) (n : EnrollNote prim) : Untouched before (w.noted n) := by
  cases n <;> exact ⟨h.files, h.wrote, h.quiet⟩

theorem Untouched.related (h : Untouched before w) {seen : Seen prim} (hseen : w.seen = seen) :
    Related tool address before (seen, false) seen.saved w := by
  refine ⟨h.kept, h.quiet, ?_, fun _ => ⟨congrArg Seen.saved hseen, rfl⟩⟩
  rw [hseen]
  exact ⟨rfl, rfl, rfl⟩

theorem enrollInSession_told {args : EnrollArgs} {name : String} {description : List Text}
    (h : Untouched before w) : Following (enrollInSession tool args name description)
      (fun after _ => Told tool args.address before after) w := by
  refine (calm_untouched (calls_sayAll description) h).bind ?_ (fun _ _ hin => hin.told)
  intro w _ hw
  refine ⟨trivial, fun _ after hnote => ?_⟩
  obtain rfl : after = w.noted .start := hnote
  have henroll : (enroll ⟨name, none, none, none⟩ : EnrollmentProgram prim (Enrollment prim)).Ensures attending
      Seen.Allows (Seen.Ends attending) Seen.fresh := Seen.enroll_ensures observes_attending _
  have hlibrary := henroll.prod (endsTripped_enroll ⟨name, none, none, none⟩)
  refine hosted_told hlibrary ((hw.noted .start).related rfl) ?_
  rintro v last w out hrelated ⟨hends, htripped⟩
  refine handle_told hrelated ?_
  have hforget : (out.mapError (fun x => (⟨x, none⟩ : Raised prim))).mapError Raised.exn = out := by
    cases out <;> rfl
  rw [hforget]
  exact ⟨hends.exact synchronous_attending, htripped⟩

theorem resumeInSession_told {args : EnrollArgs} {description : List Text} (h : Untouched before w) :
    Following (resumeInSession tool args e description) (fun after _ => Told tool args.address before after) w := by
  refine (calm_untouched (calls_sayAll description) h).bind ?_ (fun _ _ hin => hin.told)
  intro w _ hw
  refine ⟨trivial, fun _ after hnote => ?_⟩
  obtain rfl : after = w.noted (.resume e) := hnote
  have hresume := (Seen.resumeEnrollment_ensures observes_attending e none).prod
    (endsTripped_resumeEnrollment e none)
  rw [← forgetting_resumeRaising] at hresume
  refine hosted_told (ensures_of_forgetting hresume) ((hw.noted (.resume e)).related rfl) ?_
  rintro v last w out hrelated ⟨hends, htripped⟩
  exact handle_told hrelated ⟨hends.exact synchronous_attending, htripped⟩

theorem openSession_told {body : List Text → ToolProgram prim (Nat ⊕ Enrollment prim)} {place : Text}
    (h : Untouched before w) (hbody : ∀ description w, Untouched before w →
      Following (body description) (fun after _ => Told tool address before after) w) :
    Following (openSession place body) (fun after _ => Told tool address before after) w := by
  have hcalm : ∀ {β : Type} {p : ToolProgram prim β} {rest : β → ToolProgram prim (Nat ⊕ Enrollment prim)}
      {w : World prim}, p.Calls Calm → Untouched before w →
      (∀ b w, Untouched before w → Following (rest b) (fun after _ => Told tool address before after) w) →
      Following (p >>= rest) (fun after _ => Told tool address before after) w := by
    intro β p rest w hp hw hrest
    exact (calm_untouched hp hw).bind (fun w b hin => hrest b w hin) (fun _ _ hin => hin.told)
  have hopen : (.call .openTransport cliRaising : ToolProgram prim Text).Calls Calm :=
    ⟨trivial, fun r => calls_cliRaising r⟩
  have hconnect : (.call .connectSession exnRaising : ToolProgram prim (List Text)).Calls Calm :=
    ⟨trivial, fun r => calls_exnRaising r⟩
  have hclose : (.call .closeSession exnRaising : ToolProgram prim Unit).Calls Calm :=
    ⟨trivial, fun r => calls_exnRaising r⟩
  refine hcalm (calls_say rfl) h (fun _ w hw => hcalm hopen hw (fun mtu w hw => ?_))
  refine hcalm (calls_say rfl) hw (fun _ w hw => ?_)
  have hinside := hcalm hconnect hw (fun description w hin => hbody description w hin)
  refine hinside.both (fun after out hin => ?_)
  refine (calm_told hclose hin).bind (fun after _ hin => ?_) (fun _ _ hin => hin)
  cases out with
  | ok result => exact hin
  | error x => exact hin

theorem finished_told {p : ToolProgram prim (Nat ⊕ Enrollment prim)}
    (h : Following p (fun after _ => Told tool address before after) w) :
    Following (p >>= finished tool address) (fun after _ => Told tool address before after) w :=
  h.bind (fun _ out hin => calm_told (calls_finished tool address out) hin) (fun _ _ hin => hin)

theorem untouched_bind {β : Type} {p : ToolProgram prim β} {rest : β → ToolProgram prim Nat}
    (hp : p.Calls Calm) (hw : Untouched before w) (hrest : ∀ b w, Untouched before w →
      Following (rest b) (fun after _ => Told tool address before after) w) :
    Following (p >>= rest) (fun after _ => Told tool address before after) w :=
  (calm_untouched hp hw).bind (fun w b hin => hrest b w hin) (fun _ _ hin => hin.told)

theorem checkLoginBudget_untouched {place : Text} {force : Bool} {rest : Unit → ToolProgram prim Nat}
    (hw : Untouched before w) (hrest : ∀ w, Untouched before w →
      Following (rest ()) (fun after _ => Told tool address before after) w) :
    Following (checkLoginBudget tool place force >>= rest) (fun after _ => Told tool address before after) w := by
  have hcheck : Following (checkLoginBudget tool place force) (fun w _ => Untouched before w) w :=
    recording_following (calls_checkLoginBudget tool place place force) (fun _ _ => Untouched.frame) hw
  exact hcheck.bind (fun w _ hin => hrest w hin) (fun _ _ hin => hin.told)

theorem enrollConfirmed_told {args : EnrollArgs} {name : String} (h : Untouched before w) :
    Following (enrollConfirmed tool args name) (fun after _ => Told tool args.address before after) w := by
  have hfind : (.call .findAdvertisement exnRaising : ToolProgram prim (Option Seed)).Calls Calm :=
    ⟨trivial, fun r => calls_exnRaising r⟩
  refine untouched_bind (calls_say rfl) h (fun _ w hw => ?_)
  refine untouched_bind (calls_checkWritable tool) hw (fun _ w hw => ?_)
  refine untouched_bind (calls_say rfl) hw (fun _ w hw => untouched_bind hfind hw (fun found w hw => ?_))
  cases found with
  | none => exact hw.told
  | some seed =>
    dsimp only
    split_ifs
    · exact hw.told
    · refine untouched_bind (calls_say rfl) hw (fun _ w hw => ?_)
      refine checkLoginBudget_untouched hw (fun w hw => ?_)
      exact finished_told (openSession_told hw (fun _ _ hin => enrollInSession_told hin))

theorem cmdEnroll_told (args : EnrollArgs) (h : Untouched before w) :
    Following (cmdEnroll tool args : ToolProgram prim Nat) (fun after _ => Told tool args.address before after) w := by
  unfold cmdEnroll
  split_ifs
  · refine untouched_bind (calls_findStored tool args) h (fun stored w hw => ?_)
    unfold resumeStored
    split_ifs
    · exact untouched_bind (calls_say rfl) hw (fun _ _ hin => hin.told)
    · refine untouched_bind (calls_confirm _ _ _ _) hw (fun yes w hw => ?_)
      cases yes with
      | false => exact hw.told
      | true =>
        refine untouched_bind (calls_checkWritable tool) hw (fun _ w hw => ?_)
        refine checkLoginBudget_untouched hw (fun w hw => ?_)
        exact finished_told (openSession_told hw (fun _ _ hin => resumeInSession_told hin))
  · unfold enrollAnew
    cases args.name with
    | none => exact h.told
    | some name =>
      have hvalid : (validatedCli (deviceNameSet (nameOf name)) : ToolProgram prim CommandPayload).Calls Calm := by
        unfold validatedCli
        split <;> trivial
      refine untouched_bind hvalid h (fun _ w hw => ?_)
      refine untouched_bind (calls_findByAddress tool _) hw (fun found w hw => ?_)
      cases found with
      | cons existing rest => exact hw.told
      | nil =>
        refine untouched_bind (calls_confirm _ _ _ _) hw (fun yes w hw => ?_)
        cases yes with
        | false => exact hw.told
        | true => exact enrollConfirmed_told hw

end

/-! What the named file holds. -/

section

variable (tool : Tool) (address : Argument)

/-- The command ends by saying that this file holds the enrollment, and that
the resume at this address finishes it. -/
def Tells (w : World prim) (path : Text) : Prop :=
  (∃ line ∈ w.said, line.holds = some path) ∧ .finishWith address.val ∈ w.said

/-- The file is in the state directory, it loads as the enrollment with every
confirmed step, and it is found by the address. -/
def Holds (w : World prim) (path : Text) : Prop :=
  ∃ e ∈ w.seen.saved, e.completed = w.seen.confirmed ∧
    (∃ name file seenAt, path = tool.directory ++ text "/" ++ name ∧ (name, file) ∈ w.files ∧
      load prim tool.maxDepth path file = .ok ⟨path, e, seenAt⟩) ∧
    ∃ found, byAddress tool prim w.directory address = .ok found ∧
      ∃ stored ∈ found, stored.path = path ∧ stored.enrollment = e

/-- The files the run left alone are sound; and it put a file into place, or
the directory held the enrollment there before, last seen at the address. -/
def Spared (before : Directory) (w : World prim) (path : Text) : Prop :=
  (∀ f ∈ before, (text ".json").isSuffixOf f.1 = true → f.1 ∉ w.wrote → SoundFile tool.maxDepth f.2) ∧
    (w.wrote = [] → ∃ e ∈ w.seen.saved, ∃ name file seenAt, path = tool.directory ++ text "/" ++ name ∧
      (name, file) ∈ before ∧ (text ".json").isSuffixOf name = true ∧
      load prim tool.maxDepth path file = .ok ⟨path, e, some seenAt⟩ ∧
      sameAddress tool.casefold seenAt address = true)

variable {tool address} {before : Directory} {w : World prim} {path : Text}

theorem byAddress_ok_iff {directory : Option Directory} {found : List (StoredLock prim)} :
    byAddress tool prim directory address = .ok found ↔
      (∀ f ∈ directory.getD [], (text ".json").isSuffixOf f.1 = true → SoundFile tool.maxDepth f.2) ∧
        found = ((jsonFiles (directory.getD [])).filterMap (loaded prim tool.maxDepth tool.directory)).filter
          (fun stored => stored.address.any (fun a => sameAddress tool.casefold a address)) := by
  have hsound : (∀ f ∈ jsonFiles (directory.getD []), SoundFile tool.maxDepth f.2) ↔
      ∀ f ∈ directory.getD [], (text ".json").isSuffixOf f.1 = true → SoundFile tool.maxDepth f.2 := by
    simp only [mem_jsonFiles, and_imp]
  rw [← hsound, byAddress]
  constructor
  · intro h
    cases hl : storedLocks prim tool.maxDepth tool.directory directory with
    | error x =>
      rw [hl] at h
      cases h
    | ok l =>
      rw [hl] at h
      obtain ⟨hfiles, rfl⟩ := (storedLocks_ok_iff prim tool.maxDepth).mp hl
      exact ⟨hfiles, (Except.ok.inj h).symm⟩
  · rintro ⟨hfiles, rfl⟩
    rw [(storedLocks_ok_iff prim tool.maxDepth).mpr ⟨hfiles, rfl⟩]
    rfl

theorem Told.spared (h : Told tool address before w) (hh : Holds tool address w path) :
    Spared tool address before w path := by
  obtain ⟨e, he, -, -, found, hfound, stored, hstored, rfl, rfl⟩ := hh
  obtain ⟨hsound, rfl⟩ := byAddress_ok_iff.mp hfound
  refine ⟨fun f hf hjson hwrote => hsound f (h.kept.others f hf hwrote) hjson, fun hwrote => ?_⟩
  obtain ⟨hloaded, haddress⟩ := List.mem_filter.mp hstored
  obtain ⟨⟨name, file⟩, hfile, hload⟩ := List.mem_filterMap.mp hloaded
  obtain ⟨hmem, hjson⟩ := mem_jsonFiles.mp hfile
  have hload' : load prim tool.maxDepth (tool.directory ++ text "/" ++ name) file = .ok stored := by
    unfold loaded at hload
    cases hl : load prim tool.maxDepth (tool.directory ++ text "/" ++ name) file with
    | ok other =>
      rw [hl] at hload
      exact congrArg Except.ok (Option.some.inj hload)
    | error x =>
      rw [hl] at hload
      cases hload
  have hpath : stored.path = tool.directory ++ text "/" ++ name := load_path prim tool.maxDepth hload'
  have hbefore : (name, file) ∈ before := by
    rcases h.kept.files (name, file) hmem with ⟨hold, -⟩ | ⟨hput, -⟩
    · exact hold
    · rw [hwrote] at hput
      cases hput
  obtain ⟨path, enrollment, seenAt⟩ := stored
  cases seenAt with
  | none => cases haddress
  | some seenAt =>
    obtain rfl : path = tool.directory ++ text "/" ++ name := hpath
    exact ⟨enrollment, he, name, file, seenAt, rfl, hbefore, hjson, hload', haddress⟩

theorem Told.holds (h : Told tool address before w) (ht : Tells address w path)
    (hs : Spared tool address before w path) : Holds tool address w path := by
  obtain ⟨⟨line, hline, hpath⟩, -⟩ := ht
  obtain ⟨e, he, rfl, hcompleted⟩ := h.named line hline path hpath
  obtain ⟨hsound, hheld⟩ := hs
  have hall : ∀ f ∈ w.directory.getD [], (text ".json").isSuffixOf f.1 = true → SoundFile tool.maxDepth f.2 := by
    intro f hf hjson
    rcases h.kept.files f hf with ⟨hold, hwrote⟩ | ⟨-, data, hlegible, hfile⟩
    · exact hsound f hold hjson hwrote
    · rw [hfile]
      refine (behaves_load_iff prim tool.maxDepth [] _).mp ?_
      rw [load_file hlegible tool.deep []]
      exact behaves_ok _
  -- either this run put the file into place, or it was there before
  have hfile : ∃ name file seenAt, pathFor tool e = tool.directory ++ text "/" ++ name ∧ (name, file) ∈ w.files ∧
      (text ".json").isSuffixOf name = true ∧
      load prim tool.maxDepth (pathFor tool e) file = .ok ⟨pathFor tool e, e, some seenAt⟩ ∧
      sameAddress tool.casefold seenAt address = true := by
    by_cases hwrote : w.wrote = []
    · obtain ⟨e', he', name, file, seenAt, hpath, hmem, hjson, hload, hsame⟩ := hheld hwrote
      obtain rfl : e' = e := Option.some.inj ((Option.mem_def.mp he').symm.trans (Option.mem_def.mp he))
      have hnone : name ∉ w.wrote := by
        rw [hwrote]
        exact List.not_mem_nil
      exact ⟨name, file, seenAt, hpath, h.kept.others _ hmem hnone, hjson, hload, hsame⟩
    · obtain ⟨data, hlegible, rfl, haddress, hmem⟩ := h.kept.last hwrote e he
      refine ⟨_, _, address.val, rfl, hmem, stateName_json _ _, ?_, beq_self_eq_true _⟩
      rw [load_file hlegible tool.deep, haddress]
  obtain ⟨name, file, seenAt, hpath, hmem, hjson, hload, hsame⟩ := hfile
  refine ⟨e, he, hcompleted, ⟨name, file, some seenAt, hpath, hmem, hload⟩, _, byAddress_ok_iff.mpr ⟨hall, rfl⟩,
    ⟨pathFor tool e, e, some seenAt⟩, ?_, rfl, rfl⟩
  refine List.mem_filter.mpr ⟨List.mem_filterMap.mpr ⟨(name, file), mem_jsonFiles.mpr ⟨hmem, hjson⟩, ?_⟩, hsame⟩
  rw [loaded, ← hpath, hload]
  rfl

end

/-- The file that is named holds the enrollment if and only if the run saved
it or it was there before, among sound files. -/
theorem namedFile_holds_iff {tool : Tool} {args : EnrollArgs} {directory : Option Directory}
    {failedLogins : FailedLogins} {w : World prim} {out : Except CliExn Nat} {path : Text}
    (hs : Steps surroundings (.start directory failedLogins) (cmdEnroll tool args) w (ended out))
    (ht : Tells args.address w path) :
    Holds tool args.address w path ↔ Spared tool args.address (directory.getD []) w path := by
  have hstart : Untouched (directory.getD []) (World.start directory failedLogins : World prim) :=
    ⟨rfl, rfl, by simp [World.start]⟩
  have hend : (ended out).Ensures surroundings (fun _ _ => True)
      (fun after _ => Told tool args.address (directory.getD []) after) w := (cmdEnroll_told args hstart).of_steps hs
  have htold : Told tool args.address (directory.getD []) w := by
    cases out with
    | ok exitCode => exact hend
    | error x => exact hend
  exact ⟨htold.spared, htold.holds ht⟩

/-! The front door, resumed from a copy of its file elsewhere and interrupted
in its login. -/

def copyArgs : EnrollArgs :=
  ⟨frontDoorAddress, none, true, some (text "backup/lock.json"), text "30", true, false⟩

def copyStored : StoredLock Primitives.scalarOne :=
  ⟨text "backup/lock.json", frontDoor, some frontDoorAddress.val⟩

def interrupting : CommandPayload → Except Exn Response := fun _ => .error .cancelled

def interruptedWorld : World Primitives.scalarOne :=
  ((resumeStored frontDoorTool copyArgs copyStored).eval (obliging interrupting) (.start none [])).2

theorem steps_interrupted : Steps surroundings (.start none []) (cmdEnroll frontDoorTool copyArgs) interruptedWorld
    (ended (.error (.exn .cancelled))) := by
  have hfind : Steps surroundings (.start none [] : World Primitives.scalarOne) (findStored frontDoorTool copyArgs)
      (.start none []) (.done copyStored) := by
    refine .call (r := .ok frontDoorData.file) rfl ?_
    have hload : load Primitives.scalarOne frontDoorTool.maxDepth (text "backup/lock.json") (.ok frontDoorData.file) =
        .ok copyStored := load_file frontDoorData_legible frontDoorTool.deep _
    rw [hload]
    exact .refl _ _
  have hrest := steps_eval (surroundings_obliging interrupting) (resumeStored frontDoorTool copyArgs copyStored)
    (.start none [])
  have hout : ((resumeStored frontDoorTool copyArgs copyStored).eval (obliging interrupting) (.start none [])).1 =
      .error (.exn .cancelled) := by rfl
  rw [hout] at hrest
  exact (hfind.bind (resumeStored frontDoorTool copyArgs)).trans hrest

theorem interrupted_tells : Tells frontDoorAddress interruptedWorld (text "state/lock-7192385c3c0605de.json") := by
  have hsaid : interruptedWorld.said.any (fun line => line.holds == some (text "state/lock-7192385c3c0605de.json")) =
      true ∧ interruptedWorld.said.contains (.finishWith frontDoorAddress.val) = true := by
    decide +kernel
  obtain ⟨line, hline, hholds⟩ := List.any_eq_true.mp hsaid.1
  exact ⟨⟨line, hline, eq_of_beq hholds⟩, List.contains_iff_mem.mp hsaid.2⟩

theorem interrupted_files : interruptedWorld.files = [] := by rfl

/-- It says that the state directory holds the enrollment, which is empty. -/
theorem namedFile_missing : Steps surroundings (.start none []) (cmdEnroll frontDoorTool copyArgs) interruptedWorld
      (ended (.error (.exn .cancelled))) ∧
    Tells frontDoorAddress interruptedWorld (text "state/lock-7192385c3c0605de.json") ∧
    ¬ Holds frontDoorTool frontDoorAddress interruptedWorld (text "state/lock-7192385c3c0605de.json") := by
  refine ⟨steps_interrupted, interrupted_tells, ?_⟩
  rintro ⟨e, -, -, ⟨name, file, seenAt, -, hmem, -⟩, -⟩
  rw [interrupted_files] at hmem
  cases hmem

theorem namedFile_holds_iff_interrupted :
    (Holds frontDoorTool frontDoorAddress interruptedWorld (text "state/lock-7192385c3c0605de.json") ↔
      Spared frontDoorTool frontDoorAddress [] interruptedWorld (text "state/lock-7192385c3c0605de.json")) :=
  namedFile_holds_iff steps_interrupted interrupted_tells

end OnestiLock.Cli
