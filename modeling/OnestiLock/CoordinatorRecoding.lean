import OnestiLock.Services

/-! Other codes in place of those the tasks of an entry carry. No coordinator looks
at a code, so every turn goes the same way. -/

namespace OnestiLock

/-- What stands in for a code, task by task. -/
abbrev Recoding := JobId → String → String

def PinOp.recode (f : String → String) : PinOp → PinOp
  | .setPin slot name code => .setPin slot name (f code)
  | .clearPin slot => .clearPin slot
  | .clearSlot slot => .clearSlot slot

def ClusterCommand.recode (f : String → String) : ClusterCommand → ClusterCommand
  | .setPinCode userId userStatus userType pinCode => .setPinCode userId userStatus userType (f pinCode)
  | .clearPinCode userId => .clearPinCode userId

def PinStage.recode (f : String → String) : PinStage → PinStage
  | .acquiring => .acquiring
  | .sending request executed => .sending (request.recode f) executed

def Job.recode (f : String → String) : Job → Job
  | .pin cid op stage => .pin cid (op.recode f) (stage.recode f)
  | .idle => .idle
  | .refresh cid stage => .refresh cid stage
  | .finished result => .finished result

def Turn.recode (f : Recoding) : Turn → Turn
  | .call tid cid op => .call tid cid (op.recode (f tid))
  | turn => turn

def EntryState.recode (f : Recoding) (w : EntryState) : EntryState :=
  { w with jobs := fun tid => (w.jobs tid).recode (f tid) }

section

variable {f : String → String} {op : PinOp}

@[simp] theorem PinOp.slot_recode : (op.recode f).slot = op.slot := by cases op <;> rfl

@[simp] theorem PinOp.request_recode : (op.recode f).request = op.request.recode f := by cases op <;> rfl

@[simp] theorem PinOp.record_recode (slots : Slots) : (op.recode f).record slots = op.record slots := by
  cases op <;> rfl

@[simp] theorem Job.recode_eq_idle {job : Job} : job.recode f = .idle ↔ job = .idle := by
  cases job <;> simp [Job.recode]

@[simp] theorem callEnd_recode (job : Job) : callEnd (job.recode f) = callEnd job := by cases job <;> rfl

end

namespace EntryState

variable {f : Recoding} {w : EntryState} {cid : CoordinatorId} {tid : JobId} {op : PinOp}

@[simp] theorem entry_recode : (w.recode f).entry = w.entry := rfl

@[simp] theorem settingUp_recode : (w.recode f).settingUp = w.settingUp := rfl

@[simp] theorem coordinators_recode : (w.recode f).coordinators = w.coordinators := rfl

@[simp] theorem jobs_recode : (w.recode f).jobs tid = (w.jobs tid).recode (f tid) := rfl

theorem recode_setJob (job : Job) : (w.setJob tid job).recode f = (w.recode f).setJob tid (job.recode (f tid)) := by
  unfold setJob recode
  congr
  funext other
  by_cases h : other = tid
  · subst h
    simp only [Function.update_self]
  · simp only [Function.update_of_ne h]

theorem recode_modify (g : Coordinator → Coordinator) : (w.modify cid g).recode f = (w.recode f).modify cid g := rfl

theorem recode_saveSlots : (w.saveSlots cid).recode f = (w.recode f).saveSlots cid := by
  unfold saveSlots
  cases hc : w.coordinators cid with
  | none => simp only [coordinators_recode, hc]
  | some c =>
    simp only [coordinators_recode, hc]
    cases hr : w.entry.runtimeData with
    | none =>
      simp only [setOptions, entry_recode, hr]
      rfl
    | some current =>
      simp only [setOptions, entry_recode, hr]
      split_ifs <;> rfl

theorem recode_setSlotName (slot : Int) (name : String) :
    (w.setSlotName cid slot name).recode f = (w.recode f).setSlotName cid slot name := by
  have hslots : ((w.recode f).loadSlots cid).slotsOf cid = (w.loadSlots cid).slotsOf cid := rfl
  unfold setSlotName
  simp only [hslots]
  split
  · exact recode_saveSlots
  · rfl

theorem recode_callPin (c : Coordinator) :
    (w.callPin c tid cid op).recode f = (w.recode f).callPin c tid cid (op.recode (f tid)) := by
  unfold callPin
  simp only [entry_recode, PinOp.slot_recode]
  split
  · exact recode_setJob _
  · split
    · rw [startSend, recode_setJob, startSend, PinOp.request_recode]
      rfl
    · exact recode_setJob _

theorem recode_refreshCapabilities (c : Coordinator) :
    (w.refreshCapabilities c tid cid).recode f = (w.recode f).refreshCapabilities c tid cid := by
  unfold refreshCapabilities
  split_ifs
  · exact recode_setJob _
  · split
    · exact recode_setJob _
    · exact recode_setJob _

theorem recode_scheduleCapabilityRefresh (c : Coordinator) :
    (w.recode f).scheduleCapabilityRefresh c tid cid = (w.scheduleCapabilityRefresh c tid cid).map (recode f) := by
  unfold scheduleCapabilityRefresh
  by_cases hfinal : c.capabilitiesFinal = true
  · rw [if_pos hfinal, if_pos hfinal]
    rfl
  · rw [if_neg hfinal, if_neg hfinal]
    by_cases hidle : w.jobs tid = .idle
    · rw [if_pos hidle, if_pos (by simp [hidle])]
      exact congrArg some (recode_refreshCapabilities c).symm
    · rw [if_neg hidle, if_neg (by simpa using hidle)]
      rfl

theorem recode_sent (c : Coordinator) (outcome : SendOutcome) :
    (w.recode f).sent c cid outcome tid = (w.sent c cid outcome tid).map (recode f) := by
  unfold sent
  by_cases hanswered : outcome.lockAnswered = true
  · rw [if_pos hanswered, if_pos hanswered]
    exact recode_scheduleCapabilityRefresh c
  · rw [if_neg hanswered, if_neg hanswered]
    rfl

theorem recode_finishPin (outcome : SendOutcome) :
    (w.finishPin tid cid op outcome).recode f = (w.recode f).finishPin tid cid (op.recode (f tid)) outcome := by
  have hslots : ((w.recode f).loadSlots cid).slotsOf cid = (w.loadSlots cid).slotsOf cid := rfl
  unfold finishPin
  simp only [recode_setJob, PinOp.record_recode, hslots]
  by_cases hdelivered : outcome.delivered = true
  · simp only [hdelivered, if_true, releasePin, recode_modify, recode_saveSlots]
    rfl
  · simp only [hdelivered]
    rfl

theorem recode_finishRefresh (answer : Option Capabilities) :
    (w.finishRefresh tid cid answer).recode f = (w.recode f).finishRefresh tid cid answer := by
  unfold finishRefresh
  cases answer with
  | none => exact recode_setJob _
  | some reported => exact recode_setJob _

theorem recode_acquired : (w.recode f).acquired tid = (w.acquired tid).map (recode f) := by
  unfold acquired
  rw [jobs_recode]
  cases hjob : w.jobs tid with
  | idle => rfl
  | finished result => rfl
  | pin cid op stage =>
    cases stage with
    | sending request executed => rfl
    | acquiring =>
      simp only [Job.recode, PinStage.recode, coordinators_recode]
      cases w.coordinators cid with
      | none => rfl
      | some c =>
        simp only [Option.bind_eq_bind, Option.bind_some]
        cases c.pinLock.take tid with
        | none => rfl
        | some lock =>
          simp only [Option.bind_some, Option.map_some, startSend, recode_setJob, PinOp.request_recode]
          rfl
  | refresh cid stage =>
    cases stage with
    | reading => rfl
    | acquiring =>
      simp only [Job.recode, coordinators_recode]
      cases w.coordinators cid with
      | none => rfl
      | some c =>
        simp only [Option.bind_eq_bind, Option.bind_some]
        cases c.capabilitiesLock.take tid with
        | none => rfl
        | some lock =>
          simp only [Option.bind_some]
          split_ifs
          · simp only [Option.map_some, recode_setJob, Job.recode]
            rfl
          · simp only [Option.map_some, recode_setJob, Job.recode]
            rfl

theorem recode_answered {outcome : SendOutcome} {background : JobId} :
    (w.recode f).answered tid outcome background = (w.answered tid outcome background).map (recode f) := by
  unfold answered
  rw [jobs_recode]
  cases hjob : w.jobs tid with
  | idle => rfl
  | finished result => rfl
  | refresh cid stage => rfl
  | pin cid op stage =>
    cases stage with
    | acquiring => rfl
    | sending request executed =>
      simp only [Job.recode, PinStage.recode, coordinators_recode]
      split_ifs
      · rfl
      · cases w.coordinators cid with
        | none => rfl
        | some c =>
          simp only [Option.bind_eq_bind, Option.bind_some, recode_sent]
          cases w.sent c cid outcome background with
          | none => rfl
          | some r => exact congrArg some (recode_finishPin outcome).symm

theorem recode_cancel : (w.recode f).cancel tid = (w.cancel tid).map (recode f) := by
  unfold cancel
  rw [jobs_recode]
  cases hjob : w.jobs tid with
  | idle => rfl
  | finished result => rfl
  | pin cid op stage => cases stage <;> rfl
  | refresh cid stage => cases stage <;> rfl

theorem recode_unwind : (w.recode f).unwind tid = (w.unwind tid).map (recode f) := by
  have hunwound : ∀ w : EntryState,
      (w.setJob tid (.finished .cancelled)).recode f = (w.recode f).setJob tid (.finished .cancelled) :=
    fun w => recode_setJob _
  unfold unwind
  rw [jobs_recode]
  cases hjob : w.jobs tid with
  | idle => rfl
  | finished result => rfl
  | pin cid op stage =>
    cases stage with
    | acquiring =>
      simp only [Job.recode, PinStage.recode, Option.map_some, hunwound]
      rfl
    | sending request executed =>
      simp only [Job.recode, PinStage.recode, Option.map_some, hunwound]
      rfl
  | refresh cid stage =>
    cases stage with
    | acquiring =>
      simp only [Job.recode, Option.map_some, hunwound]
      rfl
    | reading =>
      simp only [Job.recode, Option.map_some, hunwound]
      rfl

/-- No coordinator looks at a code. -/
theorem recode_step (turn : Turn) : (w.recode f).step (turn.recode f) = (w.step turn).map (recode f) := by
  cases turn with
  | build cid =>
    by_cases hnew : (w.coordinators cid).isNone = true
    · simp only [Turn.recode, step, coordinators_recode, hnew, if_true, Option.map_some]
      rfl
    · simp only [Turn.recode, step, coordinators_recode, hnew]
      rfl
  | publish cid =>
    by_cases hbuilt : cid ∈ w.settingUp
    · simp only [Turn.recode, step, settingUp_recode, hbuilt, if_true, Option.map_some]
      rfl
    · simp only [Turn.recode, step, settingUp_recode, hbuilt]
      rfl
  | giveUp cid => rfl
  | unload => rfl
  | call tid cid op =>
    simp only [Turn.recode, step, coordinators_recode]
    cases w.coordinators cid with
    | none => rfl
    | some c =>
      simp only [Option.bind_eq_bind, Option.bind_some, jobs_recode, Job.recode_eq_idle]
      split_ifs
      · exact congrArg some (recode_callPin c).symm
      · rfl
  | refresh tid cid =>
    simp only [Turn.recode, step, coordinators_recode]
    cases w.coordinators cid with
    | none => rfl
    | some c => exact recode_scheduleCapabilityRefresh c
  | acquired tid => exact recode_acquired
  | executes tid =>
    simp only [Turn.recode, step, jobs_recode]
    cases hjob : w.jobs tid with
    | idle => rfl
    | finished result => rfl
    | refresh cid stage => rfl
    | pin cid op stage =>
      cases stage with
      | acquiring => rfl
      | sending request executed =>
        simp only [Job.recode, PinStage.recode, Option.map_some, recode_setJob]
  | answered tid outcome background => exact recode_answered
  | capabilitiesRead tid answer =>
    simp only [Turn.recode, step, jobs_recode]
    cases hjob : w.jobs tid with
    | idle => rfl
    | finished result => rfl
    | pin cid op stage => rfl
    | refresh cid stage =>
      cases stage with
      | acquiring => rfl
      | reading => exact congrArg some (recode_finishRefresh answer).symm
  | cancel tid => exact recode_cancel
  | unwind tid => exact recode_unwind
  | setSlotName cid slot name =>
    by_cases hbuilt : (w.coordinators cid).isSome = true
    · simp only [Turn.recode, step, coordinators_recode, hbuilt, if_true, Option.map_some, recode_setSlotName]
    · simp only [Turn.recode, step, coordinators_recode, hbuilt]
      rfl
  | settings reservedSlots =>
    simp only [Turn.recode, step]
    split_ifs <;> rfl

end EntryState

end OnestiLock
