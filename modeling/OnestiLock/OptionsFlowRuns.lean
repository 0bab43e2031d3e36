import OnestiLock.OptionsFlow

/-! One submission, one command: what a dialog has started, what its next form
is to say, and that closing it leaves its writes alone. -/

namespace OnestiLock

open Python Transition

def PinForm.base (f : PinForm) : Option String := f.errors.lookup "base"

/-- Every slot the form offers is a number. -/
def PinForm.Numbered (f : PinForm) : Prop := ∀ key ∈ f.slots.map Prod.fst, ∃ slot, slotOfKey key = some slot

theorem slotOptions_numbered (strings : Strings) (options : Options) :
    ∀ key ∈ (slotOptions strings options).map Prod.fst, ∃ slot, slotOfKey key = some slot := by
  intro key hkey
  obtain ⟨slot, rfl, hlow, -⟩ := mem_slotOptions.mp hkey
  have hfirst := (firstUserSlot_range options).1
  simp only [reservedSlotsMin] at hfirst
  exact ⟨slot, slotOfKey_slotKey (by omega)⟩

theorem activeSlots_numbered (c : FormContext) :
    ∀ key ∈ (activeSlots c).map Prod.fst, ∃ slot, slotOfKey key = some slot := by
  intro key hkey
  obtain ⟨entry, hentry, rfl⟩ := List.mem_map.mp hkey
  obtain ⟨k, -, hk⟩ := List.mem_filterMap.mp hentry
  have hfirst := (firstUserSlot_range c.options).1
  simp only [reservedSlotsMin] at hfirst
  simp only at hk
  split at hk
  · obtain rfl := Option.some.inj hk
    exact ⟨_, slotOfKey_slotKey (by omega)⟩
  · cases hk

/-- How a write fails, and what the form is to say of it. -/
inductive WriteState.Fails : WriteState → FormError → Prop
  | unreached (o : SendOutcome) (h : o.delivery = .unreached) :
    Fails (.ended (.returned o)) ⟨"lock_unreachable", []⟩
  | duplicateCode (o : SendOutcome) (h : o.delivery = .rejected) (hr : o.rejection = some .duplicateCode) :
    Fails (.ended (.returned o)) ⟨"lock_rejected_duplicate", [("status", o.statusText)]⟩
  | memoryFull (o : SendOutcome) (h : o.delivery = .rejected) (hr : o.rejection = some .memoryFull) :
    Fails (.ended (.returned o)) ⟨"lock_rejected_memory_full", [("status", o.statusText)]⟩
  | rejected (o : SendOutcome) (h : o.delivery = .rejected)
    (hr : o.rejection = some .other ∨ o.rejection = none) :
    Fails (.ended (.returned o)) ⟨"lock_rejected", [("status", o.statusText)]⟩
  | timedOut : Fails (.ended .timedOut) ⟨"lock_unreachable", []⟩
  | raised (name : String) : Fails (.ended (.raised name)) ⟨"unknown", []⟩
  | cancelled : Fails .cancelled ⟨"unknown", []⟩

def WriteState.Delivered (state : WriteState) : Prop :=
  ∃ o : SendOutcome, state = .ended (.returned o) ∧ o.delivery = .delivered

theorem SendOutcome.formError_cases (o : SendOutcome) :
    ((WriteState.ended (.returned o)).Delivered ∧ WriteEnd.formError (.returned o) = none) ∨
      ∃ error, (WriteState.ended (.returned o)).Fails error ∧ WriteEnd.formError (.returned o) = some error := by
  obtain ⟨delivery, status, rejection⟩ := o
  cases delivery with
  | delivered => exact Or.inl ⟨⟨_, rfl, rfl⟩, rfl⟩
  | unreached => exact Or.inr ⟨_, .unreached _ rfl, rfl⟩
  | rejected =>
    right
    cases rejection with
    | none => exact ⟨_, .rejected _ rfl (Or.inr rfl), rfl⟩
    | some rejection =>
      cases rejection with
      | duplicateCode => exact ⟨_, .duplicateCode _ rfl rfl, rfl⟩
      | memoryFull => exact ⟨_, .memoryFull _ rfl rfl, rfl⟩
      | other => exact ⟨_, .rejected _ rfl (Or.inl rfl), rfl⟩

/-- A write that is over has been delivered, or has failed and says how. -/
theorem WriteTask.error_cases {w : WriteTask} (hover : w.state ≠ .running) :
    (w.state.Delivered ∧ w.error = none) ∨ ∃ error, w.state.Fails error ∧ w.error = some error := by
  unfold WriteTask.error
  cases hstate : w.state with
  | running => exact absurd hstate hover
  | cancelled => exact Or.inr ⟨_, .cancelled, rfl⟩
  | ended how =>
    cases how with
    | returned o => exact o.formError_cases
    | timedOut => exact Or.inr ⟨_, .timedOut, rfl⟩
    | raised name => exact Or.inr ⟨_, .raised name, rfl⟩

theorem WriteTask.fails_of_error {w : WriteTask} {error : FormError} (h : w.error = some error) :
    w.state.Fails error := by
  have hover : w.state ≠ .running := by
    intro hrunning
    simp [WriteTask.error, hrunning] at h
  obtain ⟨-, hnone⟩ | ⟨other, hfails, hother⟩ := w.error_cases hover
  · rw [h] at hnone
    cases hnone
  · obtain rfl := Option.some.inj (h.symm.trans hother)
    exact hfails

theorem WriteTask.delivered_of_error {w : WriteTask} (hover : w.state ≠ .running) (h : w.error = none) :
    w.state.Delivered := by
  obtain ⟨hdelivered, -⟩ | ⟨error, -, herror⟩ := w.error_cases hover
  · exact hdelivered
  · rw [h] at herror
    cases herror

namespace OptionsFlow

variable {s t : OptionsFlow} {path : PinPath} {c : FormContext} {userInput : Option PinInput}
  {atOnce : Option WriteEnd} {result : FlowResult}

/-! What each step can answer. -/

/-- What a path's form step does: it gives up, it shows its form, with the error
it owes or without one, or it goes on to the progress step. -/
inductive FormOutcome (s : OptionsFlow) (path : PinPath) (c : FormContext) (userInput : Option PinInput)
    (atOnce : Option WriteEnd) : FlowResult → OptionsFlow → Prop
  | aborted (reason : String) (hinput : ∀ input ∈ userInput, input.passes c = false) :
    FormOutcome s path c userInput atOnce (.abort reason) s
  | plain (f : PinForm) (hpath : f.path = path) (hnumbered : f.Numbered) (hbase : f.base = none)
    (herror : (s.fields path).error = none) (hinput : ∀ input ∈ userInput, input.passes c = false) :
    FormOutcome s path c userInput atOnce (.form f) s
  | failed (f : PinForm) (error : FormError) (hpath : f.path = path) (hnumbered : f.Numbered)
    (hbase : f.base = some error.key) (hplaceholders : error.placeholders ⊆ f.placeholders)
    (hsuggested : f.suggested = (s.fields path).input) (herror : (s.fields path).error = some error) :
    FormOutcome s path c userInput atOnce (.form f)
      (s.setFields path { s.fields path with error := none })
  | started (input : PinInput) (result : FlowResult) (t : OptionsFlow) (hinput : userInput = some input)
    (hpasses : input.passes c = true) (herror : (s.fields path).error = none)
    (hprogress : (s.setInput path (some input)).progressStep path atOnce = some (result, t)) :
    FormOutcome s path c userInput atOnce result t

theorem asyncStepSetPin_outcome (h : s.asyncStepSetPin c userInput atOnce = some (result, t)) :
    FormOutcome s .setPin c userInput atOnce result t := by
  unfold asyncStepSetPin at h
  simp only at h
  split at h
  · rename_i error herror
    obtain ⟨rfl, rfl⟩ := Prod.mk.inj (Option.some.inj h)
    exact .failed _ error rfl (slotOptions_numbered _ _) rfl (List.subset_append_right _ _) rfl herror
  · rename_i slot name code herror
    split at h
    · rename_i hpin
      exact .started _ _ _ rfl hpin herror h
    · rename_i hpin
      obtain ⟨rfl, rfl⟩ := Prod.mk.inj (Option.some.inj h)
      refine .plain _ rfl (slotOptions_numbered _ _) rfl herror ?_
      intro input hinput
      obtain rfl := Option.some.inj hinput
      simpa [PinInput.passes] using hpin
  · cases h
  · rename_i herror
    obtain ⟨rfl, rfl⟩ := Prod.mk.inj (Option.some.inj h)
    exact .plain _ rfl (slotOptions_numbered _ _) rfl herror (by simp)

theorem asyncStepClearPin_outcome (hown : ∀ input ∈ userInput, input.path = .clearPin)
    (h : s.asyncStepClearPin c userInput atOnce = some (result, t)) :
    FormOutcome s .clearPin c userInput atOnce result t := by
  have hpasses : ∀ input ∈ userInput, input.passes c = ((activeSlots c).isEmpty == false) := by
    intro input hinput
    have hpath := hown input hinput
    cases input with
    | setPin slot name code => cases hpath
    | clearPin slot => rfl
  unfold asyncStepClearPin at h
  simp only at h
  split at h
  · rename_i hnone
    obtain ⟨rfl, rfl⟩ := Prod.mk.inj (Option.some.inj h)
    refine .aborted _ ?_
    intro input hinput
    rw [hpasses input hinput, hnone]
    rfl
  · rename_i hsome
    split at h
    · rename_i error herror
      obtain ⟨rfl, rfl⟩ := Prod.mk.inj (Option.some.inj h)
      exact .failed _ error rfl (activeSlots_numbered _) rfl (List.Subset.refl _) rfl herror
    · rename_i input herror
      refine .started _ _ _ rfl ?_ herror h
      rw [hpasses input rfl]
      simpa using hsome
    · rename_i herror
      obtain ⟨rfl, rfl⟩ := Prod.mk.inj (Option.some.inj h)
      exact .plain _ rfl (activeSlots_numbered _) rfl herror (by simp)

theorem asyncStepForm_outcome (hown : ∀ input ∈ userInput, input.path = path)
    (h : s.asyncStepForm path c userInput atOnce = some (result, t)) :
    FormOutcome s path c userInput atOnce result t := by
  cases path with
  | setPin => exact asyncStepSetPin_outcome h
  | clearPin => exact asyncStepClearPin_outcome hown h

theorem asyncStepProgress_eq (path : PinPath) : s.asyncStepProgress path atOnce = s.progressStep path atOnce := by
  cases path <;> rfl

/-! What a progress step does. -/

theorem setFields_other (s : OptionsFlow) {path other : PinPath} (f : PathState) (h : other ≠ path) :
    (s.setFields path f).fields other = s.fields other := by simp [setFields, h]

/-- A progress task knows of its write what became of it, and no more. -/
structure Follows (writes : List WriteTask) (task : ProgressTask) (input : PinInput) : Prop where
  shielded : task.shielded = true
  write : ∃ w, writes[task.write]? = some w ∧ w.input = input ∧
    (task.state ≠ .waiting → w.state ≠ .running ∧ taskError task = w.error)

def newWrite (input : PinInput) (slot : Int) (atOnce : Option WriteEnd) : WriteTask :=
  ⟨input, input.op slot, atOnce.elim .running .ended⟩

/-- The state a progress step leaves: it waits, or it has taken the outcome. -/
inductive ProgressOutcome (s : OptionsFlow) (path : PinPath) (task : ProgressTask) :
    FlowResult → OptionsFlow → Prop
  | waits (hstate : task.state = .waiting) : ProgressOutcome s path task (.progress path) s
  | failed (error : FormError) (hstate : task.state ≠ .waiting) (herror : taskError task = some error) :
    ProgressOutcome s path task (.progressDone (.form path))
      (s.setFields path { s.fields path with task := none, error := some error })
  | succeeded (hstate : task.state ≠ .waiting) (herror : taskError task = none) :
    ProgressOutcome s path task (.progressDone (.done path))
      (s.setFields path { s.fields path with task := none, error := none })

theorem progressOutcome_cases {task : ProgressTask} (h : s.progressOutcome path task = (result, t)) :
    ProgressOutcome s path task result t := by
  unfold progressOutcome at h
  by_cases hstate : task.state = .waiting
  · rw [if_pos hstate] at h
    obtain ⟨rfl, rfl⟩ := Prod.mk.inj h
    exact .waits hstate
  · rw [if_neg hstate] at h
    cases herror : taskError task with
    | none =>
      simp only [herror, Option.isSome_none] at h
      obtain ⟨rfl, rfl⟩ := Prod.mk.inj h
      exact .succeeded hstate herror
    | some error =>
      simp only [herror, Option.isSome_some, if_true] at h
      obtain ⟨rfl, rfl⟩ := Prod.mk.inj h
      exact .failed error hstate herror

theorem progressStep_starts (atOnce : Option WriteEnd) {input : PinInput} {slot : Int}
    (htask : (s.fields path).task = none)
    (hinput : (s.fields path).input = some input) (hslot : slotOfKey input.slot = some slot) :
    ∃ task, (s.startWrite path input slot atOnce).writes = s.writes ++ [newWrite input slot atOnce] ∧
      (s.startWrite path input slot atOnce).fields =
        Function.update s.fields path { s.fields path with task := some task } ∧
      task.write = s.writes.length ∧ Follows (s.writes ++ [newWrite input slot atOnce]) task input ∧
      s.progressStep path atOnce =
        some ((s.startWrite path input slot atOnce).progressOutcome path task) := by
  refine ⟨⟨s.writes.length, true, atOnce.elim .waiting (fun how => .finished how.formError)⟩, rfl, rfl, rfl, ?_, ?_⟩
  · refine ⟨rfl, newWrite input slot atOnce, by simp, rfl, ?_⟩
    cases atOnce with
    | none => simp
    | some how => simp [newWrite, taskError, WriteTask.error]
  · simp [progressStep, htask, hinput, hslot, startWrite, setFields]

theorem progressStep_goes {task : ProgressTask} (htask : (s.fields path).task = some task) :
    s.progressStep path atOnce = some (s.progressOutcome path task) := by
  simp only [progressStep, htask]

theorem progressStep_slot {input : PinInput} (htask : (s.fields path).task = none)
    (hinput : (s.fields path).input = some input) (h : s.progressStep path atOnce = some (result, t)) :
    ∃ slot, slotOfKey input.slot = some slot := by
  cases hslot : slotOfKey input.slot with
  | some slot => exact ⟨slot, rfl⟩
  | none => simp [progressStep, htask, hinput, hslot] at h

end OptionsFlow

/-! What a dialog has shown and started, in order. -/

inductive DialogEntry
  | started (path : PinPath) (write : Nat)
  | shown (f : PinForm)

def FlowResult.entries : FlowResult → List DialogEntry
  | .form f => [.shown f]
  | .progress _ | .progressDone _ | .createEntry | .abort _ => []

/-- What a turn adds. -/
def OptionsFlow.record (s : OptionsFlow) (turn : DialogTurn) : List DialogEntry :=
  match s.call turn with
  | some (result, t) =>
    (t.writes.drop s.writes.length).map (fun w => .started w.input.path s.writes.length) ++ result.entries
  | none => []

/-- The write whose end the next form of a path is to report: the last one of the
path, while no form of it has been shown since. -/
def owed (h : List DialogEntry) (path : PinPath) : Option Nat :=
  h.foldl (fun write entry =>
    match entry with
    | .started started number => if started = path then some number else write
    | .shown f => if f.path = path then none else write) none

theorem owed_started (h : List DialogEntry) (path started : PinPath) (write : Nat) :
    owed (h ++ [.started started write]) path = if started = path then some write else owed h path := by
  simp [owed]

theorem owed_shown (h : List DialogEntry) (path : PinPath) (f : PinForm) :
    owed (h ++ [.shown f]) path = if f.path = path then none else owed h path := by
  simp [owed]

namespace OptionsFlow

variable {s t : OptionsFlow} {h : List DialogEntry}

/-- Nothing is left to say on a path. -/
structure Quiet (s : OptionsFlow) (h : List DialogEntry) (path : PinPath) : Prop where
  task : (s.fields path).task = none
  error : (s.fields path).error = none
  paid : owed h path = none

/-- Where a dialog stands: between writes, in one, or on the way from one. -/
inductive Tracks (s : OptionsFlow) (h : List DialogEntry) : Prop
  | idle (hcurrent : s.current = .menu ∨ ∃ f, s.current = .form f ∧ f.Numbered) (hquiet : ∀ q, s.Quiet h q)
  | writing (path : PinPath) (task : ProgressTask) (input : PinInput) (hcurrent : s.current = .progress path)
    (htask : (s.fields path).task = some task) (hinput : (s.fields path).input = some input)
    (hpath : input.path = path) (hfollows : Follows s.writes task input)
    (howed : owed h path = some task.write) (hquiet : ∀ q, q ≠ path → s.Quiet h q)
  | failed (path : PinPath) (write : Nat) (w : WriteTask) (error : FormError)
    (hcurrent : s.current = .progressDone (.form path)) (htask : (s.fields path).task = none)
    (herror : (s.fields path).error = some error) (hinput : (s.fields path).input = some w.input)
    (hwrite : s.writes[write]? = some w) (hpath : w.input.path = path) (hfailed : w.error = some error)
    (howed : owed h path = some write) (hquiet : ∀ q, q ≠ path → s.Quiet h q)
  | succeeded (path : PinPath) (write : Nat) (w : WriteTask)
    (hcurrent : s.current = .progressDone (.done path)) (htask : ∀ q, (s.fields q).task = none)
    (hwrite : s.writes[write]? = some w) (hpath : w.input.path = path) (hdelivered : w.state.Delivered)
    (howed : owed h path = some write)
  | closed (hcurrent : s.current = .closed)
    (hshielded : ∀ q task, (s.fields q).task = some task → task.shielded = true)

theorem Quiet.congr {q : PinPath} {h' : List DialogEntry} (hq : s.Quiet h q) (hfields : t.fields q = s.fields q)
    (howed : owed h' q = owed h q) : t.Quiet h' q :=
  ⟨hfields ▸ hq.task, hfields ▸ hq.error, howed.trans hq.paid⟩

theorem Tracks.shielded (ht : s.Tracks h) (q : PinPath) (task : ProgressTask)
    (htask : (s.fields q).task = some task) : task.shielded = true := by
  have hnone : (s.fields q).task = none → task.shielded = true := by
    intro hn
    rw [hn] at htask
    cases htask
  cases ht with
  | idle _ hquiet => exact hnone (hquiet q).task
  | writing path own input _ hown _ _ hfollows _ hquiet =>
    by_cases hq : q = path
    · subst hq
      obtain rfl := Option.some.inj (hown.symm.trans htask)
      exact hfollows.shielded
    · exact hnone (hquiet q hq).task
  | failed path _ _ _ _ hown _ _ _ _ _ _ hquiet =>
    by_cases hq : q = path
    · exact hnone (hq ▸ hown)
    · exact hnone (hquiet q hq).task
  | succeeded _ _ _ _ hall => exact hnone (hall q)
  | closed _ hall => exact hall q task htask

theorem Tracks.quiet (ht : s.Tracks h) (hcurrent : s.current = .menu ∨ ∃ f, s.current = .form f) (q : PinPath) :
    s.Quiet h q := by
  cases ht with
  | idle _ hquiet => exact hquiet q
  | writing _ _ _ hother => simp [hother] at hcurrent
  | failed _ _ _ _ hother => simp [hother] at hcurrent
  | succeeded _ _ _ hother => simp [hother] at hcurrent
  | closed hother => simp [hother] at hcurrent

theorem Tracks.numbered (ht : s.Tracks h) {f : PinForm} (hcurrent : s.current = .form f) : f.Numbered := by
  cases ht with
  | idle hidle =>
    rcases hidle with hidle | ⟨g, hidle, hnumbered⟩
    · simp [hidle] at hcurrent
    · obtain rfl : g = f := Current.form.inj (hidle.symm.trans hcurrent)
      exact hnumbered
  | writing _ _ _ hother => simp [hother] at hcurrent
  | failed _ _ _ _ hother => simp [hother] at hcurrent
  | succeeded _ _ _ hother => simp [hother] at hcurrent
  | closed hother => simp [hother] at hcurrent

theorem Tracks.in_progress (ht : s.Tracks h) {path : PinPath} (hcurrent : s.current = .progress path) :
    ∃ task input, (s.fields path).task = some task ∧ (s.fields path).input = some input ∧ input.path = path ∧
      Follows s.writes task input ∧ owed h path = some task.write ∧ ∀ q, q ≠ path → s.Quiet h q := by
  cases ht with
  | writing own task input hown htask hinput hpath hfollows howed hquiet =>
    obtain rfl : own = path := Current.progress.inj (hown.symm.trans hcurrent)
    exact ⟨task, input, htask, hinput, hpath, hfollows, howed, hquiet⟩
  | idle hidle =>
    rcases hidle with hidle | ⟨f, hidle, -⟩
    · simp [hidle] at hcurrent
    · simp [hidle] at hcurrent
  | failed _ _ _ _ hother => simp [hother] at hcurrent
  | succeeded _ _ _ hother => simp [hother] at hcurrent
  | closed hother => simp [hother] at hcurrent

theorem Tracks.after_failure (ht : s.Tracks h) {path : PinPath} (hcurrent : s.current = .progressDone (.form path)) :
    ∃ write w error, (s.fields path).task = none ∧ (s.fields path).error = some error ∧
      (s.fields path).input = some w.input ∧ s.writes[write]? = some w ∧ w.input.path = path ∧
      w.error = some error ∧ owed h path = some write ∧ ∀ q, q ≠ path → s.Quiet h q := by
  cases ht with
  | failed own write w error hown htask herror hinput hwrite hpath hfailed howed hquiet =>
    obtain rfl : own = path := NextStep.form.inj (Current.progressDone.inj (hown.symm.trans hcurrent))
    exact ⟨write, w, error, htask, herror, hinput, hwrite, hpath, hfailed, howed, hquiet⟩
  | idle hidle =>
    rcases hidle with hidle | ⟨f, hidle, -⟩
    · simp [hidle] at hcurrent
    · simp [hidle] at hcurrent
  | writing _ _ _ hother => simp [hother] at hcurrent
  | succeeded _ _ _ hother => simp [hother] at hcurrent
  | closed hother => simp [hother] at hcurrent

theorem Tracks.after_delivery (ht : s.Tracks h) {path : PinPath} (hcurrent : s.current = .progressDone (.done path)) :
    ∃ write w, s.writes[write]? = some w ∧ w.input.path = path ∧ w.state.Delivered ∧ owed h path = some write := by
  cases ht with
  | succeeded own write w hown htask hwrite hpath hdelivered howed =>
    obtain rfl : own = path := NextStep.done.inj (Current.progressDone.inj (hown.symm.trans hcurrent))
    exact ⟨write, w, hwrite, hpath, hdelivered, howed⟩
  | idle hidle =>
    rcases hidle with hidle | ⟨f, hidle, -⟩
    · simp [hidle] at hcurrent
    · simp [hidle] at hcurrent
  | writing _ _ _ hother => simp [hother] at hcurrent
  | failed _ _ _ _ hother => simp [hother] at hcurrent
  | closed hother => simp [hother] at hcurrent

/-! Which step a turn calls. -/

inductive CallOutcome (s : OptionsFlow) : DialogTurn → FlowResult → OptionsFlow → Prop
  | chosen (path : PinPath) (c : FormContext) (result : FlowResult) (t : OptionsFlow)
    (hcurrent : s.current = .menu ∨ ∃ f, s.current = .form f)
    (houtcome : FormOutcome s path c none none result t) : CallOutcome s (.choose path c) result t
  | submitted (f : PinForm) (input : PinInput) (c : FormContext) (atOnce : Option WriteEnd)
    (result : FlowResult) (t : OptionsFlow) (hcurrent : s.current = .form f) (hpath : f.path = input.path)
    (hslot : input.slot ∈ f.slots.map Prod.fst)
    (houtcome : FormOutcome s input.path c (some input) atOnce result t) :
    CallOutcome s (.submit input c atOnce) result t
  | rerun (path : PinPath) (result : FlowResult) (t : OptionsFlow) (hcurrent : s.current = .progress path)
    (hprogress : s.progressStep path none = some (result, t)) : CallOutcome s .rerun result t
  | routed (path : PinPath) (attached : Option PinInput) (c : FormContext) (atOnce : Option WriteEnd)
    (result : FlowResult) (t : OptionsFlow) (hcurrent : s.current = .progressDone (.form path))
    (houtcome : FormOutcome s path c attached atOnce result t) :
    CallOutcome s (.route attached c atOnce) result t
  | finished (path : PinPath) (attached : Option PinInput) (c : FormContext) (atOnce : Option WriteEnd)
    (hcurrent : s.current = .progressDone (.done path)) :
    CallOutcome s (.route attached c atOnce) .createEntry (s.setInput path none)

theorem call_cases {turn : DialogTurn} {result : FlowResult} (hcall : s.call turn = some (result, t)) :
    CallOutcome s turn result t := by
  cases turn with
  | choose path c =>
    simp only [call] at hcall
    split at hcall
    · rename_i hcurrent
      exact .chosen path c _ _ (.inl hcurrent) (asyncStepForm_outcome (by simp) hcall)
    · rename_i f hcurrent
      exact .chosen path c _ _ (.inr ⟨f, hcurrent⟩) (asyncStepForm_outcome (by simp) hcall)
    all_goals cases hcall
  | submit input c atOnce =>
    simp only [call] at hcall
    split at hcall
    · rename_i f hcurrent
      split at hcall
      · rename_i hform
        refine .submitted f input c atOnce _ _ hcurrent hform.1 hform.2 (asyncStepForm_outcome ?_ hcall)
        intro own hown
        exact congrArg PinInput.path (Option.some.inj hown).symm
      · cases hcall
    all_goals cases hcall
  | rerun =>
    simp only [call] at hcall
    split at hcall
    · rename_i path hcurrent
      rw [asyncStepProgress_eq] at hcall
      exact .rerun path _ _ hcurrent hcall
    all_goals cases hcall
  | route attached c atOnce =>
    simp only [call] at hcall
    split at hcall
    · rename_i path hcurrent
      split at hcall
      · rename_i hown
        exact .routed path attached c atOnce _ _ hcurrent (asyncStepForm_outcome hown hcall)
      · cases hcall
    · rename_i path hcurrent
      have hdone : s.asyncStepDone path = (.createEntry, s.setInput path none) := by cases path <;> rfl
      rw [hdone] at hcall
      obtain ⟨rfl, rfl⟩ := Prod.mk.inj (Option.some.inj hcall)
      exact .finished path attached c atOnce hcurrent
    all_goals cases hcall
  | close => cases hcall
  | ends write how => cases hcall
  | shutdown write => cases hcall
  | wake path => cases hcall

theorem step_cases {turn : DialogTurn} (hstep : s.step turn = some t) :
    (∃ result u, s.call turn = some (result, u) ∧ t = { u with current := currentAfter result }) ∨
      (s.call turn = none ∧ s.background turn = some t) := by
  unfold step at hstep
  split at hstep
  · rename_i result u hcall
    exact .inl ⟨result, u, hcall, (Option.some.inj hstep).symm⟩
  · rename_i hcall
    exact .inr ⟨hcall, hstep⟩

theorem record_started {turn : DialogTurn} {result : FlowResult} {w : WriteTask}
    (hcall : s.call turn = some (result, t)) (hwrites : t.writes = s.writes ++ [w]) :
    s.record turn = .started w.input.path s.writes.length :: result.entries := by
  simp [record, hcall, hwrites]

theorem record_quiet {turn : DialogTurn} {result : FlowResult} (hcall : s.call turn = some (result, t))
    (hwrites : t.writes = s.writes) : s.record turn = result.entries := by
  simp [record, hcall, hwrites]

theorem record_background {turn : DialogTurn} (hcall : s.call turn = none) : s.record turn = [] := by
  simp [record, hcall]

/-! A step keeps track. -/

theorem ProgressOutcome.tracks {path : PinPath} {task : ProgressTask} {input : PinInput}
    {result : FlowResult} (hout : ProgressOutcome s path task result t)
    (htask : (s.fields path).task = some task) (hinput : (s.fields path).input = some input)
    (hpath : input.path = path) (hfollows : Follows s.writes task input)
    (howed : owed h path = some task.write) (hquiet : ∀ q, q ≠ path → s.Quiet h q) :
    Tracks { t with current := currentAfter result } h ∧ t.writes = s.writes ∧ result.entries = [] := by
  obtain ⟨w, hw, hwinput, hover⟩ := hfollows.write
  cases hout with
  | waits hstate =>
    have hsame : ∀ q, q ≠ path → Quiet { s with current := .progress path } h q :=
      fun q hq => (hquiet q hq).congr rfl rfl
    exact ⟨.writing path task input rfl htask hinput hpath hfollows howed hsame, rfl, rfl⟩
  | failed error hstate herror =>
    have hfailed : w.error = some error := (hover hstate).2.symm.trans herror
    refine ⟨.failed path task.write w error rfl ?_ ?_ ?_ hw (hwinput ▸ hpath) hfailed howed ?_, rfl, rfl⟩
    · simp [setFields]
    · simp [setFields]
    · simp [setFields, hinput, hwinput]
    · intro q hq
      exact (hquiet q hq).congr (setFields_other _ _ hq) rfl
  | succeeded hstate herror =>
    have hdelivered : w.state.Delivered :=
      w.delivered_of_error (hover hstate).1 ((hover hstate).2.symm.trans herror)
    refine ⟨.succeeded path task.write w rfl ?_ hw (hwinput ▸ hpath) hdelivered howed, rfl, rfl⟩
    intro q
    by_cases hq : q = path
    · subst hq
      simp [setFields]
    · simpa [setFields, hq] using (hquiet q hq).task

theorem started_tracks {path : PinPath} {input : PinInput} {atOnce : Option WriteEnd} {result : FlowResult}
    (hquiet : ∀ q, s.Quiet h q) (hpath : input.path = path)
    (hprogress : (s.setInput path (some input)).progressStep path atOnce = some (result, t)) :
    ∃ slot, slotOfKey input.slot = some slot ∧ t.writes = s.writes ++ [newWrite input slot atOnce] ∧
      result.entries = [] ∧
      Tracks { t with current := currentAfter result } (h ++ [.started path s.writes.length]) := by
  have htask : ((s.setInput path (some input)).fields path).task = none := by
    simpa [setInput, setFields] using (hquiet path).task
  have hinput : ((s.setInput path (some input)).fields path).input = some input := by simp [setInput, setFields]
  obtain ⟨slot, hslot⟩ := progressStep_slot htask hinput hprogress
  obtain ⟨task, hwrites, hfields, hnumber, hfollows, hgoes⟩ := progressStep_starts atOnce htask hinput hslot
  have hout := progressOutcome_cases (Option.some.inj (hgoes.symm.trans hprogress))
  have howed : owed (h ++ [.started path s.writes.length]) path = some task.write := by
    rw [owed_started, if_pos rfl, hnumber]
    exact rfl
  have hothers : ∀ q, q ≠ path →
      ((s.setInput path (some input)).startWrite path input slot atOnce).Quiet
        (h ++ [.started path s.writes.length]) q := by
    intro q hq
    refine (hquiet q).congr ?_ ?_
    · rw [hfields, Function.update_of_ne hq]
      exact setFields_other _ _ hq
    · rw [owed_started, if_neg (Ne.symm hq)]
  obtain ⟨htracks, hsame, hentries⟩ := hout.tracks (by rw [hfields, Function.update_self])
    (by rw [hfields, Function.update_self]; exact hinput) hpath (by rw [hwrites]; exact hfollows) howed hothers
  exact ⟨slot, hslot, hsame.trans hwrites, hentries, htracks⟩

theorem FormOutcome.tracks {path : PinPath} {c : FormContext} {userInput : Option PinInput}
    {atOnce : Option WriteEnd} {result : FlowResult} (hout : FormOutcome s path c userInput atOnce result t)
    (hown : ∀ input ∈ userInput, input.path = path) (hquiet : ∀ q, s.Quiet h q) :
    (Tracks { t with current := currentAfter result } (h ++ result.entries) ∧ t.writes = s.writes ∧
      ∀ input ∈ userInput, input.passes c = false) ∨
    ∃ input slot, userInput = some input ∧ input.passes c = true ∧ slotOfKey input.slot = some slot ∧
      t.writes = s.writes ++ [newWrite input slot atOnce] ∧ result.entries = [] ∧
      Tracks { t with current := currentAfter result } (h ++ [.started path s.writes.length]) := by
  cases hout with
  | aborted reason hinput =>
    refine .inl ⟨.closed rfl ?_, rfl, hinput⟩
    intro q task htask
    rw [(hquiet q).task] at htask
    cases htask
  | plain f hpath hnumbered hbase herror hinput =>
    refine .inl ⟨.idle (.inr ⟨f, rfl, hnumbered⟩) ?_, rfl, hinput⟩
    intro q
    refine (hquiet q).congr rfl ?_
    rw [FlowResult.entries, owed_shown, (hquiet q).paid]
    split <;> rfl
  | failed f error _ _ _ _ _ herror =>
    rw [(hquiet path).error] at herror
    cases herror
  | started input result t hinput hpasses herror hprogress =>
    obtain ⟨slot, hslot, hwrites, hentries, htracks⟩ := started_tracks hquiet (hown input hinput) hprogress
    exact .inr ⟨input, slot, hinput, hpasses, hslot, hwrites, hentries, htracks⟩

theorem FormOutcome.tracks_failed {path : PinPath} {c : FormContext} {userInput : Option PinInput}
    {atOnce : Option WriteEnd} {result : FlowResult} {error : FormError}
    (hout : FormOutcome s path c userInput atOnce result t) (htask : (s.fields path).task = none)
    (herror : (s.fields path).error = some error) (hquiet : ∀ q, q ≠ path → s.Quiet h q) :
    Tracks { t with current := currentAfter result } (h ++ result.entries) ∧ t.writes = s.writes := by
  have hnone : ∀ q, (s.fields q).task = none := by
    intro q
    by_cases hq : q = path
    · exact hq ▸ htask
    · exact (hquiet q hq).task
  have hclash : (s.fields path).error = none → False := by
    intro hn
    rw [hn] at herror
    cases herror
  cases hout with
  | aborted reason _ =>
    refine ⟨.closed rfl ?_, rfl⟩
    intro q task hq
    rw [hnone q] at hq
    cases hq
  | plain _ _ _ _ hn _ => exact absurd hn hclash
  | failed f found hpath hnumbered _ _ _ _ =>
    refine ⟨.idle (.inr ⟨f, rfl, hnumbered⟩) ?_, rfl⟩
    intro q
    by_cases hq : q = path
    · subst hq
      refine ⟨by simpa [setFields] using htask, by simp [setFields], ?_⟩
      rw [FlowResult.entries, owed_shown, if_pos hpath]
    · refine (hquiet q hq).congr (setFields_other _ _ hq) ?_
      rw [FlowResult.entries, owed_shown, if_neg (by rw [hpath]; exact Ne.symm hq)]
  | started _ _ _ _ _ hn _ => exact absurd hn hclash

theorem call_tracks {turn : DialogTurn} {result : FlowResult} (ht : s.Tracks h)
    (hcall : s.call turn = some (result, t)) :
    Tracks { t with current := currentAfter result } (h ++ s.record turn) ∧
      ((s.accepts turn = none ∧ t.writes = s.writes) ∨
        ∃ input slot w, s.accepts turn = some input ∧ slotOfKey input.slot = some slot ∧
          t.writes = s.writes ++ [w] ∧ w.input = input ∧ w.op = input.op slot) := by
  have hout := call_cases hcall
  cases hout with
  | chosen path c result t hcurrent houtcome =>
    obtain ⟨htracks, hwrites, -⟩ | ⟨input, -, hinput, -⟩ := houtcome.tracks (by simp) (ht.quiet hcurrent)
    · rw [record_quiet hcall hwrites]
      exact ⟨htracks, .inl ⟨rfl, hwrites⟩⟩
    · cases hinput
  | submitted f input c atOnce result t hcurrent hpath hslot houtcome =>
    have haccepts : s.accepts (.submit input c atOnce) = if input.passes c then some input else none := by
      simp [accepts, hcurrent, hpath, hslot]
    have hown : ∀ own ∈ some input, own.path = input.path :=
      fun own hown => congrArg PinInput.path (Option.some.inj hown).symm
    obtain ⟨htracks, hwrites, hrefused⟩ | ⟨own, slot, hinput, hpasses, hkey, hwrites, hentries, htracks⟩ :=
      houtcome.tracks hown (ht.quiet (.inr ⟨f, hcurrent⟩))
    · rw [record_quiet hcall hwrites, haccepts, hrefused input rfl]
      exact ⟨htracks, .inl ⟨rfl, hwrites⟩⟩
    · obtain rfl := Option.some.inj hinput
      rw [record_started hcall hwrites, hentries, haccepts, hpasses]
      exact ⟨htracks, .inr ⟨input, slot, _, rfl, hkey, hwrites, rfl, rfl⟩⟩
  | rerun path result t hcurrent hprogress =>
    obtain ⟨task, input, htask, hinput, hpath, hfollows, howed, hquiet⟩ := ht.in_progress hcurrent
    have hout := progressOutcome_cases (Option.some.inj ((progressStep_goes htask).symm.trans hprogress))
    obtain ⟨htracks, hwrites, hentries⟩ := hout.tracks htask hinput hpath hfollows howed hquiet
    rw [record_quiet hcall hwrites, hentries, List.append_nil]
    exact ⟨htracks, .inl ⟨rfl, hwrites⟩⟩
  | routed path attached c atOnce result t hcurrent houtcome =>
    obtain ⟨write, w, error, htask, herror, -, -, -, -, -, hquiet⟩ := ht.after_failure hcurrent
    obtain ⟨htracks, hwrites⟩ := houtcome.tracks_failed htask herror hquiet
    rw [record_quiet hcall hwrites]
    exact ⟨htracks, .inl ⟨rfl, hwrites⟩⟩
  | finished path attached c atOnce hcurrent =>
    have hwrites : (s.setInput path none).writes = s.writes := rfl
    rw [record_quiet hcall hwrites]
    refine ⟨.closed rfl ?_, .inl ⟨rfl, hwrites⟩⟩
    intro q task htask
    refine ht.shielded q task ?_
    by_cases hq : q = path
    · subst hq
      simpa [setInput, setFields] using htask
    · simpa [setInput, setFields, hq] using htask

/-! What happens outside of the steps. -/

theorem getElem?_setWrite (s : OptionsFlow) (write : Nat) (state : WriteState) (k : Nat) :
    (s.setWrite write state).writes[k]? =
      s.writes[k]?.map (fun w => if write = k then { w with state := state } else w) := by
  simp only [setWrite, List.getElem?_modify]
  by_cases hk : write = k <;> simp [hk]

theorem inputs_setWrite (s : OptionsFlow) (write : Nat) (state : WriteState) :
    (s.setWrite write state).writes.map WriteTask.input = s.writes.map WriteTask.input := by
  refine List.ext_getElem? ?_
  intro k
  rw [List.getElem?_map, getElem?_setWrite, List.getElem?_map, Option.map_map]
  cases s.writes[k]? with
  | none => rfl
  | some w =>
    simp only [Option.map_some, Function.comp_apply]
    split <;> rfl

theorem Tracks.setWrite (ht : s.Tracks h) {write : Nat} {w : WriteTask} (state : WriteState)
    (hw : s.writes[write]? = some w) (hrunning : w.state = .running) (saved : List PinInput) :
    Tracks { s.setWrite write state with saved := saved } h := by
  have hkept : ∀ {k : Nat} {other : WriteTask}, s.writes[k]? = some other → other.state ≠ .running →
      (s.setWrite write state).writes[k]? = some other := by
    intro k other hother hstate
    have hne : write ≠ k := by
      rintro rfl
      obtain rfl := Option.some.inj (hw.symm.trans hother)
      exact hstate hrunning
    rw [getElem?_setWrite, hother]
    simp [hne]
  cases ht with
  | idle hidle hquiet => exact .idle hidle (fun q => (hquiet q).congr rfl rfl)
  | writing path task input hcurrent htask hinput hpath hfollows howed hquiet =>
    obtain ⟨own, hown, hownInput, hover⟩ := hfollows.write
    refine .writing path task input hcurrent htask hinput hpath ⟨hfollows.shielded, ?_⟩ howed
      (fun q hq => (hquiet q hq).congr rfl rfl)
    by_cases hstate : task.state = .waiting
    · refine ⟨if write = task.write then { own with state := state } else own, ?_, ?_, absurd hstate⟩
      · exact (getElem?_setWrite s write state task.write).trans (by rw [hown]; rfl)
      · split <;> exact hownInput
    · exact ⟨own, hkept hown (hover hstate).1, hownInput, hover⟩
  | failed path number own error hcurrent htask herror hinput hown hpath hfailed howed hquiet =>
    have hstate : own.state ≠ .running := by
      intro hr
      simp [WriteTask.error, hr] at hfailed
    exact .failed path number own error hcurrent htask herror hinput (hkept hown hstate) hpath hfailed howed
      (fun q hq => (hquiet q hq).congr rfl rfl)
  | succeeded path number own hcurrent htask hown hpath hdelivered howed =>
    have hstate : own.state ≠ .running := by
      obtain ⟨o, hended, -⟩ := hdelivered
      simp [hended]
    exact .succeeded path number own hcurrent htask (hkept hown hstate) hpath hdelivered howed
  | closed hcurrent hshielded => exact .closed hcurrent hshielded

theorem cancelProgress_writes {path : PinPath}
    (hshielded : ∀ q task, (s.fields q).task = some task → task.shielded = true) :
    (s.cancelProgress path).writes = s.writes ∧
      ∀ q task, ((s.cancelProgress path).fields q).task = some task → task.shielded = true := by
  unfold cancelProgress
  cases htask : (s.fields path).task with
  | none => exact ⟨rfl, hshielded⟩
  | some task =>
    have hshield := hshielded path task htask
    by_cases hstate : task.state = .waiting
    · simp only [hstate, if_true, hshield]
      refine ⟨rfl, ?_⟩
      intro q other hother
      by_cases hq : q = path
      · subst hq
        simp only [setFields, Function.update_self, Option.some.injEq] at hother
        obtain rfl := hother
        rfl
      · exact hshielded q other (by simpa [setFields, hq] using hother)
    · simp only [hstate, if_false]
      exact ⟨trivial, hshielded⟩

theorem close_tracks (ht : s.Tracks h) : ∃ t, s.step .close = some t ∧ t.current = .closed ∧
    t.writes = s.writes ∧ t.saved = s.saved ∧ t.Tracks h := by
  obtain ⟨hone, hshield⟩ := cancelProgress_writes ht.shielded
  obtain ⟨htwo, hboth⟩ := cancelProgress_writes hshield
  have hsaved : ∀ (u : OptionsFlow) (path : PinPath), (u.cancelProgress path).saved = u.saved := by
    intro u path
    unfold cancelProgress
    split
    · split
      · split <;> rfl
      · rfl
    · rfl
  exact ⟨_, rfl, rfl, htwo.trans hone, (hsaved _ _).trans (hsaved _ _), .closed rfl hboth⟩

theorem wake_tracks (ht : s.Tracks h) {path : PinPath} (hstep : s.background (.wake path) = some t) :
    t.Tracks h ∧ t.writes = s.writes := by
  simp only [background, Option.bind_eq_bind, Option.bind_eq_some_iff] at hstep
  obtain ⟨task, htask, w, hw, hstep⟩ := hstep
  by_cases hstate : task.state = .waiting
  · rw [if_pos hstate] at hstep
    have hwoken : ∃ state, t = s.setFields path
        { s.fields path with task := some { task with state := state } } ∧ state ≠ .waiting ∧
          w.state ≠ .running ∧ taskError { task with state := state } = w.error := by
      cases hend : w.state with
      | running => simp [hend] at hstep
      | ended how =>
        simp only [hend, Option.some.injEq] at hstep
        exact ⟨_, hstep.symm, by simp, by simp, by simp [taskError, WriteTask.error, hend]⟩
      | cancelled =>
        simp only [hend, Option.some.injEq] at hstep
        exact ⟨_, hstep.symm, by simp, by simp, by simp [taskError, WriteTask.error, hend]⟩
    obtain ⟨state, rfl, hdone, hover, herror⟩ := hwoken
    refine ⟨?_, rfl⟩
    have hclash : (s.fields path).task = none → False := by
      intro hn
      rw [hn] at htask
      cases htask
    cases ht with
    | idle _ hquiet => exact absurd (hquiet path).task hclash
    | writing own found input hcurrent hfound hinput hpath hfollows howed hquiet =>
      by_cases hq : path = own
      · subst hq
        obtain rfl := Option.some.inj (hfound.symm.trans htask)
        obtain ⟨other, hother, hotherInput, -⟩ := hfollows.write
        obtain rfl := Option.some.inj (hother.symm.trans hw)
        refine .writing path { found with state := state } input hcurrent (by simp [setFields])
          (by simpa [setFields] using hinput) hpath ⟨hfollows.shielded, other, hother, hotherInput, ?_⟩ howed ?_
        · exact fun _ => ⟨hover, herror⟩
        · exact fun q hne => (hquiet q hne).congr (setFields_other _ _ hne) rfl
      · exact absurd (hquiet path hq).task hclash
    | failed own _ _ _ _ hnone _ _ _ _ _ _ hquiet =>
      by_cases hq : path = own
      · exact absurd (hq ▸ hnone) hclash
      · exact absurd (hquiet path hq).task hclash
    | succeeded _ _ _ _ hnone => exact absurd (hnone path) hclash
    | closed hcurrent hshielded =>
      refine .closed hcurrent ?_
      intro q other hother
      by_cases hq : q = path
      · subst hq
        simp only [setFields, Function.update_self, Option.some.injEq] at hother
        rw [← hother]
        exact hshielded q task htask
      · exact hshielded q other (by simpa [setFields, hq] using hother)
  · rw [if_neg hstate] at hstep
    cases hstep

/-- A step keeps track, and the writes are the submissions that were let through. -/
theorem step_tracks {turn : DialogTurn} (ht : s.Tracks h) (hstep : s.step turn = some t) :
    t.Tracks (h ++ s.record turn) ∧
      t.writes.map WriteTask.input = s.writes.map WriteTask.input ++ (s.accepts turn).toList := by
  obtain ⟨result, u, hcall, rfl⟩ | ⟨hcall, hback⟩ := step_cases hstep
  · obtain ⟨htracks, hwrites⟩ := call_tracks ht hcall
    refine ⟨htracks, ?_⟩
    obtain ⟨hnone, hsame⟩ | ⟨input, slot, w, haccepts, -, hnew, hinput, -⟩ := hwrites
    · simp [hnone, hsame]
    · simp [haccepts, hnew, hinput]
  · rw [record_background hcall, List.append_nil]
    cases turn with
    | close =>
      obtain ⟨u, hu, -, hwrites, -, htracks⟩ := close_tracks ht
      obtain rfl := Option.some.inj (hu.symm.trans hstep)
      exact ⟨htracks, by simp [hwrites, accepts]⟩
    | ends write how =>
      simp only [background, Option.bind_eq_bind, Option.bind_eq_some_iff, Option.ite_none_right_eq_some] at hback
      obtain ⟨w, hw, hrunning, hback⟩ := hback
      obtain rfl := Option.some.inj hback
      exact ⟨ht.setWrite _ hw hrunning _, by simpa [accepts] using inputs_setWrite s write (.ended how)⟩
    | shutdown write =>
      simp only [background, Option.bind_eq_bind, Option.bind_eq_some_iff, Option.ite_none_right_eq_some] at hback
      obtain ⟨w, hw, hrunning, hback⟩ := hback
      obtain rfl := Option.some.inj hback
      exact ⟨ht.setWrite _ hw hrunning s.saved, by simpa [accepts] using inputs_setWrite s write .cancelled⟩
    | wake path =>
      obtain ⟨htracks, hwrites⟩ := wake_tracks ht hback
      exact ⟨htracks, by simp [hwrites, accepts]⟩
    | choose path c => cases hback
    | submit input c atOnce => cases hback
    | rerun => cases hback
    | route attached c atOnce => cases hback

theorem write_kept {turn : DialogTurn} (ht : s.Tracks h) (hstep : s.step turn = some t) {write : Nat}
    {w : WriteTask} (hw : s.writes[write]? = some w) :
    t.writes[write]? = some w ∨
      (∃ how, turn = .ends write how ∧ t.writes[write]? = some { w with state := .ended how }) ∨
      (turn = .shutdown write ∧ t.writes[write]? = some { w with state := .cancelled }) := by
  have hset : ∀ (k : Nat) (state : WriteState), (s.setWrite k state).writes[write]? =
      some (if k = write then { w with state := state } else w) := by
    intro k state
    rw [getElem?_setWrite, hw, Option.map_some]
  obtain ⟨result, u, hcall, rfl⟩ | ⟨hcall, hback⟩ := step_cases hstep
  · left
    obtain ⟨-, ⟨-, hsame⟩ | ⟨-, -, new, -, -, hnew, -⟩⟩ := call_tracks ht hcall
    · exact hsame ▸ hw
    · have hlt : write < s.writes.length := (List.getElem?_eq_some_iff.mp hw).1
      change u.writes[write]? = some w
      rw [hnew, List.getElem?_append_left hlt, hw]
  · cases turn with
    | close =>
      obtain ⟨u, hu, -, hwrites, -⟩ := close_tracks ht
      obtain rfl := Option.some.inj (hu.symm.trans hstep)
      exact .inl (hwrites ▸ hw)
    | ends k how =>
      simp only [background, Option.bind_eq_bind, Option.bind_eq_some_iff, Option.ite_none_right_eq_some] at hback
      obtain ⟨own, _, _, hback⟩ := hback
      obtain rfl := Option.some.inj hback
      by_cases hk : k = write
      · subst hk
        exact .inr (.inl ⟨how, rfl, (hset k _).trans (by rw [if_pos rfl])⟩)
      · exact .inl ((hset k _).trans (by rw [if_neg hk]))
    | shutdown k =>
      simp only [background, Option.bind_eq_bind, Option.bind_eq_some_iff, Option.ite_none_right_eq_some] at hback
      obtain ⟨own, _, _, hback⟩ := hback
      obtain rfl := Option.some.inj hback
      by_cases hk : k = write
      · subst hk
        exact .inr (.inr ⟨rfl, (hset k _).trans (by rw [if_pos rfl])⟩)
      · exact .inl ((hset k _).trans (by rw [if_neg hk]))
    | wake path =>
      obtain ⟨-, hwrites⟩ := wake_tracks ht hback
      exact .inl (hwrites ▸ hw)
    | choose path c => cases hback
    | submit input c atOnce => cases hback
    | rerun => cases hback
    | route attached c atOnce => cases hback

theorem ends_running {write : Nat} {w : WriteTask} (hw : s.writes[write]? = some w)
    (hrunning : w.state = .running) (how : WriteEnd) : ∃ t, s.step (.ends write how) = some t ∧
      t.saved = s.saved ++ (if how.saves then [w.input] else []) := by
  refine ⟨{ s.setWrite write (.ended how) with
    saved := s.saved ++ (if how.saves then [w.input] else []) }, ?_, rfl⟩
  simp [step, call, background, hw, hrunning]

theorem asyncStepForm_passes {path : PinPath} {c : FormContext} {input : PinInput} {atOnce : Option WriteEnd}
    (hpath : input.path = path) (herror : (s.fields path).error = none) (hpasses : input.passes c = true) :
    s.asyncStepForm path c (some input) atOnce = (s.setInput path (some input)).progressStep path atOnce := by
  subst hpath
  cases input with
  | setPin slot name code =>
    have hpin : isValidPin c.digits (text code) c.capabilities = true := hpasses
    have herror : (s.fields .setPin).error = none := herror
    simp [asyncStepForm, PinInput.path, asyncStepSetPin, herror, hpin, asyncStepSetPinProgress]
  | clearPin slot =>
    have hactive : activeSlots c ≠ [] := by
      intro hnil
      simp [PinInput.passes, hnil] at hpasses
    have herror : (s.fields .clearPin).error = none := herror
    simp [asyncStepForm, PinInput.path, asyncStepClearPin, herror, hactive, asyncStepClearPinProgress]

theorem accepted_starts {turn : DialogTurn} {input : PinInput} (ht : s.Tracks h)
    (haccepts : s.accepts turn = some input) : ∃ t slot w, s.step turn = some t ∧
      slotOfKey input.slot = some slot ∧ t.writes = s.writes ++ [w] ∧ w.input = input ∧ w.op = input.op slot := by
  have hcalls : ∃ result u, s.call turn = some (result, u) := by
    cases turn with
    | submit own c atOnce =>
      simp only [accepts] at haccepts
      split at haccepts
      · rename_i f hcurrent
        split at haccepts
        · rename_i hform
          have hquiet := ht.quiet (.inr ⟨f, hcurrent⟩)
          obtain ⟨slot, hslot⟩ := ht.numbered hcurrent own.slot hform.1.2
          have hsteps : s.asyncStepForm own.path c (some own) atOnce =
              (s.setInput own.path (some own)).progressStep own.path atOnce :=
            asyncStepForm_passes rfl (hquiet own.path).error hform.2
          have htask : ((s.setInput own.path (some own)).fields own.path).task = none := by
            simpa [setInput, setFields] using (hquiet own.path).task
          have hinput : ((s.setInput own.path (some own)).fields own.path).input = some own := by
            simp [setInput, setFields]
          obtain ⟨task, -, -, -, -, hgoes⟩ := progressStep_starts atOnce htask hinput hslot
          have hcall : s.call (.submit own c atOnce) = s.asyncStepForm own.path c (some own) atOnce := by
            simp [call, hcurrent, hform.1.1, hform.1.2]
          exact ⟨_, _, hcall.trans (hsteps.trans hgoes)⟩
        · cases haccepts
      all_goals cases haccepts
    | _ => cases haccepts
  obtain ⟨result, u, hcall⟩ := hcalls
  obtain ⟨-, ⟨hnone, -⟩ | ⟨own, slot, w, hown, hslot, hwrites, hinput, hop⟩⟩ := call_tracks ht hcall
  · rw [hnone] at haccepts
    cases haccepts
  · obtain rfl := Option.some.inj (hown.symm.trans haccepts)
    exact ⟨{ u with current := currentAfter result }, slot, w, by simp [step, hcall], hslot, hwrites, hinput, hop⟩

/-- What a form has to say: nothing, or how a write of its path failed. -/
structure Reports (s : OptionsFlow) (h : List DialogEntry) (f : PinForm) : Prop where
  silent : owed h f.path = none → f.base = none
  failed : ∀ write, owed h f.path = some write → ∃ w error, s.writes[write]? = some w ∧
    w.input.path = f.path ∧ w.error = some error ∧ f.base = some error.key ∧
    error.placeholders ⊆ f.placeholders ∧ f.suggested = some w.input

theorem Reports.of_quiet {f : PinForm} (hquiet : s.Quiet h f.path) (hbase : f.base = none) : s.Reports h f := by
  refine ⟨fun _ => hbase, ?_⟩
  intro write hwrite
  rw [hquiet.paid] at hwrite
  cases hwrite

theorem form_reports {turn : DialogTurn} {f : PinForm} (ht : s.Tracks h)
    (hcall : s.call turn = some (.form f, t)) : s.Reports h f := by
  have hidle : ∀ {path : PinPath} {c : FormContext} {userInput : Option PinInput} {atOnce : Option WriteEnd},
      (∀ q, s.Quiet h q) → FormOutcome s path c userInput atOnce (.form f) t →
      (∀ input ∈ userInput, input.path = path) → s.Reports h f := by
    intro path c userInput atOnce hquiet hout hown
    cases hout with
    | plain _ hpath _ hbase _ _ => exact .of_quiet (hquiet _) hbase
    | failed _ error _ _ _ _ _ herror =>
      rw [(hquiet path).error] at herror
      cases herror
    | started input _ _ hinput _ _ hprogress =>
      obtain ⟨_, _, _, hentries, _⟩ := started_tracks hquiet (hown input hinput) hprogress
      cases hentries
  cases call_cases hcall with
  | chosen path c _ _ hcurrent hout => exact hidle (ht.quiet hcurrent) hout (by simp)
  | submitted g input c atOnce _ _ hcurrent _ _ hout =>
    exact hidle (ht.quiet (.inr ⟨g, hcurrent⟩)) hout
      (fun own hown => congrArg PinInput.path (Option.some.inj hown).symm)
  | rerun path _ _ hcurrent hprogress =>
    obtain ⟨task, input, htask, hinput, hpath, hfollows, howed, hquiet⟩ := ht.in_progress hcurrent
    have hout := progressOutcome_cases (Option.some.inj ((progressStep_goes htask).symm.trans hprogress))
    obtain ⟨-, -, hentries⟩ := hout.tracks htask hinput hpath hfollows howed hquiet
    cases hentries
  | routed path attached c atOnce _ _ hcurrent hout =>
    obtain ⟨write, w, error, -, herror, hinput, hwrite, hpath, hfailed, howed, -⟩ := ht.after_failure hcurrent
    have hclash : (s.fields path).error = none → False := by
      intro hn
      rw [hn] at herror
      cases herror
    cases hout with
    | plain _ _ _ _ hn _ => exact absurd hn hclash
    | failed _ found hform _ hbase hplaceholders hsuggested hfound =>
      obtain rfl := Option.some.inj (hfound.symm.trans herror)
      refine ⟨?_, ?_⟩
      · intro hn
        rw [hform, howed] at hn
        cases hn
      · intro number hnumber
        rw [hform, howed] at hnumber
        obtain rfl := Option.some.inj hnumber
        exact ⟨w, found, hwrite, hpath.trans hform.symm, hfailed, hbase, hplaceholders, hsuggested.trans hinput⟩
    | started _ _ _ _ _ hn _ => exact absurd hn hclash

/-- However the flow is routed on from a failure, the form of the path says so and
suggests what was submitted; a path with no slot left to offer gives up instead. -/
def ShowsFailure (s : OptionsFlow) (path : PinPath) (error : FormError) (input : PinInput) : Prop :=
  ∀ (attached : Option PinInput) (c : FormContext) (atOnce : Option WriteEnd),
    (∀ own ∈ attached, own.path = path) →
    ∃ result t, s.call (.route attached c atOnce) = some (result, t) ∧ t.writes = s.writes ∧
      ((∃ f, result = .form f ∧ f.path = path ∧ f.base = some error.key ∧
          error.placeholders ⊆ f.placeholders ∧ f.suggested = some input) ∨
        path = .clearPin ∧ activeSlots c = [] ∧ result = .abort "no_active_slots")

theorem showsFailure_of_error {path : PinPath} {error : FormError} {input : PinInput}
    (hcurrent : s.current = .progressDone (.form path)) (herror : (s.fields path).error = some error)
    (hinput : (s.fields path).input = some input) : s.ShowsFailure path error input := by
  intro attached c atOnce hown
  have hcall : s.call (.route attached c atOnce) = s.asyncStepForm path c attached atOnce := by
    simp only [call, hcurrent]
    exact if_pos hown
  rw [hcall]
  cases path with
  | setPin =>
    simp only [asyncStepForm, asyncStepSetPin, herror]
    exact ⟨_, _, rfl, rfl, Or.inl ⟨_, rfl, rfl, rfl, List.subset_append_right _ _, hinput⟩⟩
  | clearPin =>
    simp only [asyncStepForm, asyncStepClearPin, herror]
    by_cases hnone : activeSlots c = []
    · rw [if_pos hnone]
      exact ⟨_, _, rfl, rfl, Or.inr ⟨trivial, hnone, rfl⟩⟩
    · rw [if_neg hnone]
      exact ⟨_, _, rfl, rfl, Or.inl ⟨_, rfl, rfl, rfl, List.Subset.refl _, hinput⟩⟩

/-- What a progress step of a path does when it is run again: it waits for as long
as its task does, and then it goes where the end of the write leads, and starts nothing. -/
structure Reruns (s : OptionsFlow) (h : List DialogEntry) (path : PinPath) (write : Nat) (w : WriteTask)
    (task : ProgressTask) : Prop where
  owes : owed h path = some write
  started : s.writes[write]? = some w
  submitted : w.input.path = path
  awaited : (s.fields path).task = some task
  waits : task.state = .waiting → s.step .rerun = some s
  wakes : task.state = .waiting → w.state ≠ .running → ∃ t own, s.step (.wake path) = some t ∧
    t.current = .progress path ∧ (t.fields path).task = some own ∧ own.state ≠ .waiting
  ends : task.state ≠ .waiting → ∃ t, s.step .rerun = some t ∧ t.writes = s.writes ∧
    (w.state.Delivered ∧ t.current = .progressDone (.done path) ∨
      ∃ error, w.state.Fails error ∧ t.current = .progressDone (.form path) ∧ t.ShowsFailure path error w.input)

theorem wake_over {path : PinPath} {task : ProgressTask} {w : WriteTask}
    (hcurrent : s.current = .progress path) (htask : (s.fields path).task = some task)
    (hw : s.writes[task.write]? = some w) (hwaiting : task.state = .waiting) (hover : w.state ≠ .running) :
    ∃ t own, s.step (.wake path) = some t ∧ t.current = .progress path ∧ (t.fields path).task = some own ∧
      own.state ≠ .waiting := by
  cases hstate : w.state with
  | running => exact absurd hstate hover
  | ended how =>
    refine ⟨s.setFields path { s.fields path with task := some { task with state := .finished how.formError } },
      { task with state := .finished how.formError }, ?_, hcurrent, by simp [setFields], by simp⟩
    simp [step, call, background, htask, hw, hwaiting, hstate]
  | cancelled =>
    refine ⟨s.setFields path { s.fields path with task := some { task with state := .cancelled } },
      { task with state := .cancelled }, ?_, hcurrent, by simp [setFields], by simp⟩
    simp [step, call, background, htask, hw, hwaiting, hstate]

theorem Tracks.reruns (ht : s.Tracks h) {path : PinPath} (hcurrent : s.current = .progress path) :
    ∃ write w task, s.Reruns h path write w task := by
  obtain ⟨task, input, htask, hinput, hpath, hfollows, howed, -⟩ := ht.in_progress hcurrent
  obtain ⟨w, hw, rfl, hover⟩ := hfollows.write
  have hstep : s.step .rerun = some { (s.progressOutcome path task).2 with
      current := currentAfter (s.progressOutcome path task).1 } := by
    have hcall : s.call .rerun = some (s.progressOutcome path task) := by
      simp only [call, hcurrent, asyncStepProgress_eq, progressStep_goes htask]
    simp [step, hcall]
  refine ⟨task.write, w, task, howed, hw, hpath, htask, ?_, ?_, ?_⟩
  · intro hwaiting
    rw [hstep, progressOutcome, if_pos hwaiting]
    simp [currentAfter, ← hcurrent]
  · intro hwaiting hdone
    exact wake_over hcurrent htask hw hwaiting hdone
  · intro hdone
    obtain ⟨hstopped, htold⟩ := hover hdone
    refine ⟨_, hstep, ?_⟩
    rw [progressOutcome, if_neg hdone, htold]
    refine ⟨rfl, ?_⟩
    obtain ⟨hdelivered, hnone⟩ | ⟨error, hfails, herror⟩ := w.error_cases hstopped
    · rw [hnone]
      exact Or.inl ⟨hdelivered, rfl⟩
    · rw [herror]
      refine Or.inr ⟨error, hfails, rfl, ?_⟩
      exact showsFailure_of_error rfl (by simp [setFields]) (by simpa [setFields] using hinput)

theorem Tracks.shows_failure (ht : s.Tracks h) {path : PinPath} (hcurrent : s.current = .progressDone (.form path)) :
    ∃ write w error, owed h path = some write ∧ s.writes[write]? = some w ∧ w.input.path = path ∧
      w.state.Fails error ∧ s.ShowsFailure path error w.input := by
  obtain ⟨write, w, error, -, herror, hinput, hwrite, hpath, hfailed, howed, -⟩ := ht.after_failure hcurrent
  exact ⟨write, w, error, howed, hwrite, hpath, w.fails_of_error hfailed, showsFailure_of_error hcurrent herror hinput⟩

theorem opened_tracks : opened.Tracks [] := .idle (.inl rfl) (fun _ => ⟨rfl, rfl, rfl⟩)

theorem exec_tracks {turns : List DialogTurn} (hrun : exec step opened turns = some s) :
    s.Tracks (history step record opened turns) ∧ s.writes.map WriteTask.input =
      history step (fun u turn => (u.accepts turn).toList) opened turns := by
  have htracks : s.Tracks ([] ++ history step record opened turns) :=
    exec_history (I := Tracks) (fun u k turn v hu _ hv => (step_tracks hu hv).1) opened_tracks along_true hrun
  have hwrites : (∃ k, s.Tracks k) ∧ s.writes.map WriteTask.input =
      [] ++ history step (fun u turn => (u.accepts turn).toList) opened turns :=
    exec_history
      (I := fun u accepted => (∃ k, u.Tracks k) ∧ u.writes.map WriteTask.input = accepted)
      (fun u accepted turn v hu _ hv => by
        obtain ⟨⟨k, hk⟩, rfl⟩ := hu
        obtain ⟨hnext, hmap⟩ := step_tracks hk hv
        exact ⟨⟨_, hnext⟩, hmap⟩)
      ⟨⟨[], opened_tracks⟩, rfl⟩ along_true hrun
  rw [List.nil_append] at htracks hwrites
  exact ⟨htracks, hwrites.2⟩

end OptionsFlow

open OptionsFlow in
/-- One submission, one command, over every run of a dialog: the writes are the
submissions that were let through, a write that failed is told by the next form of
its path and by no other, and nothing stops a write that has started. -/
theorem one_submission_one_command {turns : List DialogTurn} {s : OptionsFlow}
    (hrun : exec OptionsFlow.step opened turns = some s) :
    s.writes.map WriteTask.input = history OptionsFlow.step (fun u turn => (u.accepts turn).toList) opened turns ∧
    (∀ turn input, s.accepts turn = some input → ∃ t slot w, s.step turn = some t ∧
      slotOfKey input.slot = some slot ∧ t.writes = s.writes ++ [w] ∧ w.input = input ∧ w.op = input.op slot) ∧
    (∀ turn t, s.step turn = some t → s.accepts turn = none →
      t.writes.map WriteTask.input = s.writes.map WriteTask.input) ∧
    (∀ turn f t, s.call turn = some (.form f, t) → s.Reports (history OptionsFlow.step record opened turns) f) ∧
    (∀ path, s.current = .progress path →
      ∃ write w task, s.Reruns (history OptionsFlow.step record opened turns) path write w task) ∧
    (∀ path, s.current = .progressDone (.form path) → ∃ write w error,
      owed (history OptionsFlow.step record opened turns) path = some write ∧ s.writes[write]? = some w ∧
      w.input.path = path ∧ w.state.Fails error ∧ s.ShowsFailure path error w.input) ∧
    (∀ path, s.current = .progressDone (.done path) → ∃ write w,
      owed (history OptionsFlow.step record opened turns) path = some write ∧ s.writes[write]? = some w ∧
      w.input.path = path ∧ w.state.Delivered) ∧
    (∃ t, s.step .close = some t ∧ t.writes = s.writes) ∧
    ∀ (write : Nat) (w : WriteTask), s.writes[write]? = some w → w.state = .running →
      (∀ turn t, s.step turn = some t → t.writes[write]? = some w ∨
        (∃ how, turn = .ends write how ∧ t.writes[write]? = some { w with state := .ended how }) ∨
        (turn = .shutdown write ∧ t.writes[write]? = some { w with state := .cancelled })) ∧
      ∀ how, ∃ t, s.step (.ends write how) = some t ∧
        t.saved = s.saved ++ (if how.saves then [w.input] else []) := by
  obtain ⟨htracks, hwrites⟩ := exec_tracks hrun
  refine ⟨hwrites, ?_, ?_, ?_, ?_, ?_, ?_, ?_, ?_⟩
  · intro turn input haccepts
    exact accepted_starts htracks haccepts
  · intro turn t hstep hnone
    have hmap := (step_tracks htracks hstep).2
    rwa [hnone, Option.toList_none, List.append_nil] at hmap
  · intro turn f t hcall
    exact form_reports htracks hcall
  · intro path hcurrent
    exact htracks.reruns hcurrent
  · intro path hcurrent
    exact htracks.shows_failure hcurrent
  · intro path hcurrent
    obtain ⟨write, w, hwrite, hpath, hdelivered, howed⟩ := htracks.after_delivery hcurrent
    exact ⟨write, w, howed, hwrite, hpath, hdelivered⟩
  · obtain ⟨t, ht, -, hsame, -⟩ := close_tracks htracks
    exact ⟨t, ht, hsame⟩
  · intro write w hw hrunning
    exact ⟨fun turn t hstep => write_kept htracks hstep hw, ends_running hw hrunning⟩

open OptionsFlow in
/-- The code for slot 3 is submitted and its write times out; the re-run leads to
the form that says so. -/
theorem one_submission_one_command_slot :
    let c : FormContext := ⟨fun _ => none, ⟨none, fun _ => none⟩, .asciiOnly, none⟩
    let input : PinInput := .setPin "3" "Kari" "1234"
    ∃ s t, exec OptionsFlow.step opened [.choose .setPin c, .submit input c none, .ends 0 .timedOut, .wake .setPin] =
        some s ∧ s.step .rerun = some t ∧ t.writes = s.writes ∧ t.current = .progressDone (.form .setPin) ∧
      t.ShowsFailure .setPin ⟨"lock_unreachable", []⟩ input := by
  intro c input
  have hslot : "3" ∈ (slotOptions c.strings c.options).map Prod.fst :=
    mem_slotOptions.mpr ⟨3, by decide, by decide, by decide⟩
  have hpin : isValidPin c.digits (text "1234") c.capabilities = true := by decide +kernel
  have hname : "3" = slotKey 3 := by decide
  have hthree : slotOfKey "3" = some 3 := by
    rw [hname]
    exact slotOfKey_slotKey (by decide)
  let f : PinForm := ⟨.setPin, slotOptions c.strings c.options, [], pinLengthPlaceholders c ++ [], none⟩
  let shown : OptionsFlow := { opened with current := .form f }
  let sent : OptionsFlow :=
    { (shown.setInput .setPin (some input)).startWrite .setPin input 3 none with current := .progress .setPin }
  let ended : OptionsFlow := sent.setWrite 0 (.ended .timedOut)
  let woken : OptionsFlow := ended.setFields .setPin
    { ended.fields .setPin with task := some ⟨0, true, .finished (some ⟨"lock_unreachable", []⟩)⟩ }
  have hsubmit : shown.step (.submit input c none) = some sent := by
    have hstep : shown.asyncStepForm .setPin c (some input) none =
        (shown.setInput .setPin (some input)).progressStep .setPin none := asyncStepForm_passes rfl rfl hpin
    have hgoes : (shown.setInput .setPin (some input)).progressStep .setPin none =
        some (.progress .setPin, (shown.setInput .setPin (some input)).startWrite .setPin input 3 none) := by
      simp [progressStep, setInput, setFields, startWrite, progressOutcome, shown, opened, input, PinInput.slot, hthree]
    have hform : f.path = input.path ∧ input.slot ∈ f.slots.map Prod.fst := ⟨rfl, hslot⟩
    have hcall : shown.call (.submit input c none) =
        some (.progress .setPin, (shown.setInput .setPin (some input)).startWrite .setPin input 3 none) := by
      show (if f.path = input.path ∧ input.slot ∈ f.slots.map Prod.fst then
        shown.asyncStepForm .setPin c (some input) none else none) = _
      rw [if_pos hform]
      exact hstep.trans hgoes
    simp only [step, hcall]
    rfl
  have hrun : exec OptionsFlow.step opened
      [.choose .setPin c, .submit input c none, .ends 0 .timedOut, .wake .setPin] = some woken :=
    exec_cons.mpr ⟨shown, rfl, exec_cons.mpr ⟨sent, hsubmit, rfl⟩⟩
  obtain ⟨-, -, -, -, hreruns, -⟩ := one_submission_one_command hrun
  obtain ⟨write, w, task, hgoes⟩ := hreruns .setPin rfl
  obtain rfl := Option.some.inj (hgoes.awaited : some _ = some task)
  have hstarted : [(⟨input, .setPin 3 "Kari" "1234", .ended .timedOut⟩ : WriteTask)][write]? = some w := hgoes.started
  obtain ⟨hlt, hw⟩ := List.getElem?_eq_some_iff.mp hstarted
  obtain rfl : write = 0 := by simpa using hlt
  obtain rfl : (⟨input, .setPin 3 "Kari" "1234", .ended .timedOut⟩ : WriteTask) = w := hw
  obtain ⟨t, hrerun, hwrites, ⟨⟨o, hended, -⟩, -⟩ | ⟨error, hfails, hcurrent, hshows⟩⟩ :=
    hgoes.ends (fun hwaiting => WaitState.noConfusion hwaiting)
  · cases hended
  · cases hfails
    exact ⟨woken, t, hrun, hrerun, hwrites, hcurrent, hshows⟩

end OnestiLock
