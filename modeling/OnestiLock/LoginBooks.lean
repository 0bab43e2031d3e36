import OnestiLock.CommandCalls
import OnestiLock.LoginAttempts

/-! What a command keeps of its logins and of the list of failed logins. -/

namespace OnestiLock.Cli

open Python Json Program

variable {prim : Primitives}

/-! What is neither a login nor on the list. -/

def Unlogged : ToolOp prim → Prop
  | .send command => command.commandId ∉ loginCommands
  | .linkKeys | .recordFailedLogin _ => False
  | _ => True

theorem unlogged_of_calm {op : ToolOp prim} (hop : Calm op) : Unlogged op := by
  cases op with
  | send command => exact absurd hop id
  | linkKeys => exact absurd hop id
  | recordFailedLogin entry => exact absurd hop id
  | _ => trivial

/-- The logins and the list are as they were. -/
structure Books (w after : World prim) : Prop where
  attempts : after.attempts = w.attempts
  failedLogins : after.failedLogins = w.failedLogins
  unrecorded : after.unrecorded = w.unrecorded
  asked : ∀ moment ∈ w.asked, moment ∈ after.asked

theorem Books.refl (w : World prim) : Books w w := ⟨rfl, rfl, rfl, fun _ h => h⟩

theorem Books.timed (w : World prim) (moment : DateTime) : Books w (w.timed moment) := by
  refine ⟨rfl, rfl, rfl, fun first hfirst => ?_⟩
  rw [World.timed, Option.mem_def.mp hfirst]
  rfl

theorem attemptsAfter_unlogged {attempts : List Attempt} {handed : Bool} {command : CommandPayload}
    {reply : Except Exn Response} (h : command.commandId ∉ loginCommands) :
    attemptsAfter attempts handed command reply = attempts := by
  unfold attemptsAfter
  split
  · rename_i he
    exact absurd (by rw [he]; decide) h
  · rename_i he
    exact absurd (by rw [he]; decide) h
  · rfl

theorem unlogged_books {w after : World prim} {op : ToolOp prim} {reply : ToolReply prim op} (hop : Unlogged op)
    (h : surroundings w op reply after) : Books w after ∧ (Calm op → after.asked = w.asked) := by
  have hsame : after = w → Books w after ∧ (Calm op → after.asked = w.asked) := by
    rintro rfl
    exact ⟨Books.refl after, fun _ => rfl⟩
  have hkept : after.attempts = w.attempts → after.failedLogins = w.failedLogins →
      after.unrecorded = w.unrecorded → after.asked = w.asked → Books w after ∧ (Calm op → after.asked = w.asked) :=
    fun ha hf hu hm => ⟨⟨ha, hf, hu, fun moment hmoment => hm ▸ hmoment⟩, fun _ => hm⟩
  cases op with
  | say line =>
    cases reply with
    | ok u =>
      obtain rfl : after = w.saying line := h
      exact hkept rfl rfl rfl rfl
    | error fault => exact hsame h.2
  | warn message =>
    cases reply with
    | ok u => exact hsame h
    | error fault => exact hsame h.2
  | note n =>
    obtain rfl : after = w.noted n := h
    cases n <;> exact hkept rfl rfl rfl rfl
  | listState =>
    cases reply with
    | ok listed => exact hsame h.2
    | error x => exact hsame h
  | checkWritable =>
    cases reply with
    | ok u =>
      obtain rfl : after = w.made := h
      exact hkept rfl rfl rfl rfl
    | error fault => rcases h.2 with rfl | rfl <;> exact hkept rfl rfl rfl rfl
  | writeState name data =>
    cases reply with
    | ok u =>
      obtain rfl : after = w.put name data := h
      exact hkept rfl rfl rfl rfl
    | error fault => rcases h.2 with rfl | rfl | ⟨-, rfl⟩ <;> exact hkept rfl rfl rfl rfl
  | readFailedLogins =>
    cases reply with
    | ok log => exact hsame h.2
    | error x => exact hsame h
  | recordFailedLogin entry => exact absurd hop id
  | send command =>
    obtain ⟨handed, -, rfl⟩ : ∃ handed, (isAnswer reply = true → handed = true) ∧
      after = w.answered handed command reply := h
    exact hkept (attemptsAfter_unlogged hop) rfl rfl rfl
  | linkKeys => exact absurd hop id
  | generateKeyPair =>
    obtain rfl : after = w.keyed reply := h
    exact hkept rfl rfl rfl rfl
  | now =>
    obtain rfl : after = w.timed reply.val := h
    exact ⟨Books.timed w reply.val, fun hcalm => absurd hcalm id⟩
  | _ => exact hsame h

/-! The books of a command. -/

structure Book where
  tool : Tool
  address : Text
  forceLogin : Bool
  /-- The list before the command. -/
  log : FailedLogins
  /-- How many lines these logins leave. -/
  counts : List Attempt → Nat → Prop
  nothing : counts [] 0

namespace Book

variable (book : Book)

/-- There was a login left, or it was forced. -/
def Allowed (w : World prim) : Prop :=
  book.forceLogin = true ∨ ∃ moment ∈ w.asked,
    FailedLogins.recent book.tool.casefold book.log book.address moment.micros < failedLoginLimit

/-- Up to the check of the budget. -/
structure Before (w : World prim) : Prop where
  attempts : w.attempts = []
  failedLogins : w.failedLogins = book.log
  recorded : w.unrecorded = false
  asked : w.asked = none

/-- From there on: the logins so far, and the lines written since. -/
structure Open (attempts : List Attempt) (lines : Nat) (w : World prim) : Prop where
  attempts : w.attempts = attempts
  failedLogins : ∃ entries : List FailedLogin, w.failedLogins = book.log ++ entries.map some ∧
    (∀ entry ∈ entries, entry.address = book.address) ∧ entries.length = lines
  recorded : w.unrecorded = false
  allowed : book.Allowed w

/-- Every login has been accounted for. -/
structure Closed (w : World prim) : Prop where
  counted : w.unrecorded = true ∨ ∃ entries : List FailedLogin, w.failedLogins = book.log ++ entries.map some ∧
    (∀ entry ∈ entries, entry.address = book.address) ∧ book.counts w.attempts entries.length
  allowed : w.attempts = [] ∨ book.Allowed w

variable {book} {w after : World prim} {attempts : List Attempt} {lines : Nat}

theorem Allowed.books (h : book.Allowed w) (hb : Books w after) : book.Allowed after :=
  h.imp id (fun ⟨moment, hmoment, hrecent⟩ => ⟨moment, hb.asked moment hmoment, hrecent⟩)

theorem Before.closed (h : book.Before w) : book.Closed w := by
  refine ⟨Or.inr ⟨[], by simp [h.failedLogins], by simp, ?_⟩, Or.inl h.attempts⟩
  rw [h.attempts]
  exact book.nothing

theorem Open.books (h : book.Open attempts lines w) (hb : Books w after) : book.Open attempts lines after := by
  refine ⟨hb.attempts.trans h.attempts, ?_, hb.unrecorded.trans h.recorded, h.allowed.books hb⟩
  rw [hb.failedLogins]
  exact h.failedLogins

theorem Open.closed (h : book.Open attempts lines w) (hc : book.counts attempts lines) : book.Closed w := by
  obtain ⟨entries, hentries, haddress, rfl⟩ := h.failedLogins
  refine ⟨Or.inr ⟨entries, hentries, haddress, ?_⟩, Or.inr h.allowed⟩
  rw [h.attempts]
  exact hc

theorem Closed.books (h : book.Closed w) (hb : Books w after) : book.Closed after := by
  refine ⟨?_, ?_⟩
  · rw [hb.unrecorded, hb.failedLogins, hb.attempts]
    exact h.counted
  · rw [hb.attempts]
    exact h.allowed.imp id (fun hallowed => hallowed.books hb)

/-! What the parts of a command keep. -/

variable {α β : Type} {p : ToolProgram prim α}

theorem calm_before (h : p.Calls Calm) (hw : book.Before w) : Following p (fun after _ => book.Before after) w := by
  refine h.ensures (fun _ _ _ _ => trivial) ?_ hw
  intro s op r t hs hop hr
  obtain ⟨hbooks, hasked⟩ := unlogged_books (unlogged_of_calm hop) hr
  exact ⟨hbooks.attempts.trans hs.attempts, hbooks.failedLogins.trans hs.failedLogins,
    hbooks.unrecorded.trans hs.recorded, (hasked hop).trans hs.asked⟩

theorem unlogged_open (h : p.Calls Unlogged) (hw : book.Open attempts lines w) :
    Following p (fun after _ => book.Open attempts lines after) w :=
  h.ensures (fun _ _ _ _ => trivial) (fun _ _ _ _ hs hop hr => hs.books (unlogged_books hop hr).1) hw

theorem unlogged_closed (h : p.Calls Unlogged) (hw : book.Closed w) :
    Following p (fun after _ => book.Closed after) w :=
  h.ensures (fun _ _ _ _ => trivial) (fun _ _ _ _ hs hop hr => hs.books (unlogged_books hop hr).1) hw

theorem before_bind {rest : α → ToolProgram prim β} (hp : p.Calls Calm) (hw : book.Before w)
    (hrest : ∀ a w, book.Before w → Following (rest a) (fun after _ => book.Closed after) w) :
    Following (p >>= rest) (fun after _ => book.Closed after) w :=
  (calm_before hp hw).bind (fun w a hin => hrest a w hin) (fun _ _ hin => hin.closed)

theorem open_bind {rest : α → ToolProgram prim β} (hp : p.Calls Unlogged) (hw : book.Open attempts lines w)
    (hc : book.counts attempts lines)
    (hrest : ∀ a w, book.Open attempts lines w → Following (rest a) (fun after _ => book.Closed after) w) :
    Following (p >>= rest) (fun after _ => book.Closed after) w :=
  (unlogged_open hp hw).bind (fun w a hin => hrest a w hin) (fun _ _ hin => hin.closed hc)

theorem closed_bind {rest : α → ToolProgram prim β}
    (hp : Following p (fun after _ => book.Closed after) w) (hrest : ∀ a, (rest a).Calls Unlogged) :
    Following (p >>= rest) (fun after _ => book.Closed after) w :=
  hp.bind (fun _ a hin => unlogged_closed (hrest a) hin) (fun _ _ hin => hin)

theorem checkLoginBudget_following (hw : book.Before w) :
    Following (checkLoginBudget book.tool book.address book.forceLogin) (fun after out =>
      match out with
      | .ok () => book.Open [] 0 after
      | .error _ => book.Closed after) w := by
  refine ⟨trivial, fun moment timed htimed => ?_⟩
  obtain rfl : timed = w.timed moment.val := htimed
  have hasked : (w.timed moment.val).asked = some moment.val := by
    show w.asked.or (some moment.val) = some moment.val
    rw [hw.asked]
    rfl
  have hclosed : book.Closed (w.timed moment.val) := by
    refine hw.closed.books (Books.timed w moment.val)
  refine ⟨trivial, fun read after hread => ?_⟩
  cases read with
  | error x =>
    obtain rfl : after = w.timed moment.val := hread
    exact hclosed
  | ok log =>
    obtain ⟨rfl, rfl⟩ := hread
    have hlog : (w.timed moment.val).failedLogins = book.log := hw.failedLogins
    have hopen : book.Allowed (w.timed moment.val) → book.Open [] 0 (w.timed moment.val) :=
      fun hallowed => ⟨hw.attempts, ⟨[], by simp [hlog], by simp, rfl⟩, hw.recorded, hallowed⟩
    have hrecent : FailedLogins.recent book.tool.casefold book.log book.address moment.val.micros < failedLoginLimit →
        book.Open [] 0 (w.timed moment.val) :=
      fun hlt => hopen (Or.inr ⟨moment.val, hasked, hlt⟩)
    simp only [hlog, exnRaising, Program.bind]
    split_ifs with hzero hlimit
    · refine hrecent ?_
      rw [hzero]
      decide
    · exact hclosed
    · have hallowed : book.Open [] 0 (w.timed moment.val) := by
        rw [not_and_or] at hlimit
        rcases hlimit with hlt | hforce
        · exact hrecent (not_le.mp hlt)
        · exact hopen (Or.inl (by simpa using hforce))
      refine ⟨trivial, fun warned after hwarn => ?_⟩
      cases warned with
      | ok u =>
        obtain rfl : after = w.timed moment.val := hwarn
        exact hallowed
      | error fault =>
        obtain rfl : after = w.timed moment.val := hwarn.2
        exact hclosed

/-! Writing down what failed. -/

theorem recordFailedLogin_following {kind : LoginKind} {status : String} (hw : book.Open attempts lines w) :
    Following (recordFailedLogin book.address kind status) (fun after out =>
      match out with
      | .ok () => book.Open attempts (lines + 1) after
      | .error _ => book.Closed after) w := by
  refine ⟨trivial, fun moment timed htimed => ?_⟩
  obtain rfl : timed = w.timed moment.val := htimed
  have hopen : book.Open attempts lines (w.timed moment.val) := hw.books (Books.timed w moment.val)
  refine ⟨trivial, fun written after hwritten => ?_⟩
  cases written with
  | ok u =>
    obtain rfl : after = (w.timed moment.val).recorded _ := hwritten
    obtain ⟨entries, hentries, haddress, rfl⟩ := hopen.failedLogins
    refine ⟨hopen.attempts, ⟨entries ++ [⟨moment.val.micros / 1000 * 1000, book.address, kind, status⟩], ?_, ?_, ?_⟩,
      hopen.recorded, hopen.allowed⟩
    · simp [World.recorded, hentries]
    · intro entry hentry
      rcases List.mem_append.mp hentry with hold | hnew
      · exact haddress entry hold
      · rw [List.mem_singleton.mp hnew]
    · simp
  | error fault => rcases hwritten.2 with rfl | rfl <;> exact ⟨Or.inl rfl, Or.inr hopen.allowed⟩

theorem recordLoginFailures_following {kind : LoginKind} {e : BleError} {context : Option Exn}
    (hw : book.Open attempts 0 w) (hc : book.counts attempts (refusals context)) :
    Following (recordLoginFailures book.address kind e context) (fun after _ => book.Closed after) w := by
  have hlast : ∀ {lines : Nat} {w : World prim}, book.Open attempts lines w → book.counts attempts (lines + 1) →
      Following (recordFailedLogin book.address kind (failureStatus e)) (fun after _ => book.Closed after) w := by
    intro lines w hw hc
    refine (recordFailedLogin_following hw).mono (fun after out hin => ?_)
    cases out with
    | ok u => exact hin.closed hc
    | error x => exact hin
  unfold recordLoginFailures
  split
  · exact (recordFailedLogin_following hw).bind (fun after _ hin => hlast hin hc) (fun _ _ hin => hin)
  · rename_i hother
    have hone : refusals context = 1 := by
      unfold refusals
      split
      · rename_i status command
        exact absurd rfl (hother status command)
      · rfl
    rw [hone] at hc
    exact hlast hw hc

end Book

end OnestiLock.Cli
