import OnestiLock.CoordinatorStore

/-! What one turn does to the PIN operations of an entry and to the PIN locks of
its coordinators. -/

namespace OnestiLock

/-- The PIN operation a job runs, with its coordinator and how far it is. -/
def Job.pinPart : Job → Option (CoordinatorId × PinOp × PinStage)
  | .pin cid op stage => some (cid, op, stage)
  | .idle | .refresh .. | .finished _ => none

namespace EntryState

variable {w t : EntryState} {cid : CoordinatorId} {tid : JobId}

def pins (w : EntryState) (tid : JobId) : Option (CoordinatorId × PinOp × PinStage) :=
  (w.jobs tid).pinPart

/-- The job that holds `_pin_lock` of a coordinator. -/
def holder (w : EntryState) (cid : CoordinatorId) : Option JobId :=
  (w.coordinators cid).bind (fun c => c.pinLock.holder)

theorem pins_of_job {op : PinOp} {stage : PinStage} (h : w.jobs tid = .pin cid op stage) :
    w.pins tid = some (cid, op, stage) := by
  rw [pins, h]
  rfl

theorem pins_setJob (job : Job) :
    (w.setJob tid job).pins = Function.update w.pins tid job.pinPart := by
  funext other
  by_cases h : other = tid
  · subst h
    simp only [pins, setJob, Function.update_self]
  · simp only [pins, setJob, Function.update_of_ne h]

theorem holder_modify (f : Coordinator → Coordinator) :
    (w.modify cid f).holder =
      Function.update w.holder cid
        ((w.coordinators cid).bind (fun c => (f c).pinLock.holder)) := by
  funext other
  by_cases h : other = cid
  · subst h
    rw [Function.update_self, holder, coordinators_modify_self, Option.bind_map]
    rfl
  · rw [Function.update_of_ne h, holder]
    exact congrArg (fun o => Option.bind o _) (Function.update_of_ne h ..)

theorem holder_modify_of {f : Coordinator → Coordinator}
    (hf : ∀ c, (f c).pinLock.holder = c.pinLock.holder) : (w.modify cid f).holder = w.holder := by
  rw [holder_modify]
  simp only [hf]
  exact Function.update_eq_self ..

theorem holder_modify_some {c : Coordinator} (hc : w.coordinators cid = some c)
    (f : Coordinator → Coordinator) :
    (w.modify cid f).holder = Function.update w.holder cid (f c).pinLock.holder := by
  rw [holder_modify, hc]
  rfl

/-- Nothing about the PIN operations and their locks differs. -/
def SamePins (w t : EntryState) : Prop := t.pins = w.pins ∧ t.holder = w.holder

theorem SamePins.refl (w : EntryState) : SamePins w w := ⟨rfl, rfl⟩

theorem SamePins.trans {r : EntryState} (h : SamePins w t) (h' : SamePins t r) : SamePins w r :=
  ⟨h'.1.trans h.1, h'.2.trans h.2⟩

theorem samePins_modify {f : Coordinator → Coordinator}
    (hf : ∀ c, (f c).pinLock.holder = c.pinLock.holder) : SamePins w (w.modify cid f) :=
  ⟨rfl, holder_modify_of hf⟩

theorem SamePins.setJob (h : SamePins w t) {job : Job} (hw : w.pins tid = none)
    (hj : job.pinPart = none) : SamePins w (t.setJob tid job) := by
  refine ⟨?_, h.2⟩
  rw [pins_setJob, hj, h.1]
  exact Function.update_eq_self_iff.mpr hw.symm

theorem samePins_loadSlots : SamePins w (w.loadSlots cid) := samePins_modify (fun _ => rfl)

theorem samePins_releaseCapabilities : SamePins w (w.releaseCapabilities cid) :=
  samePins_modify (fun _ => rfl)

theorem samePins_setSlots (slots : Slots) : SamePins w (w.setSlots cid slots) :=
  samePins_modify (fun _ => rfl)

theorem samePins_saveSlots : SamePins w (w.saveSlots cid) := by
  unfold saveSlots
  split
  · exact SamePins.refl w
  · simp only
    split
    · split_ifs
      · exact ⟨rfl, rfl⟩
      · exact SamePins.trans ⟨rfl, rfl⟩ samePins_loadSlots
    · exact ⟨rfl, rfl⟩

theorem samePins_setSlotName (slot : Int) (name : String) :
    SamePins w (w.setSlotName cid slot name) := by
  unfold setSlotName
  simp only
  split
  · exact samePins_loadSlots.trans ((samePins_setSlots _).trans samePins_saveSlots)
  · exact samePins_loadSlots

theorem samePins_refreshCapabilities (c : Coordinator) (h : w.pins tid = none) :
    SamePins w (w.refreshCapabilities c tid cid) := by
  unfold refreshCapabilities
  split_ifs
  · exact SamePins.setJob (SamePins.refl w) h rfl
  · split
    · refine SamePins.setJob ?_ h rfl
      exact samePins_modify (fun _ => rfl)
    · refine SamePins.setJob ?_ h rfl
      exact samePins_modify (fun _ => rfl)

theorem samePins_scheduleCapabilityRefresh {c : Coordinator}
    (h : w.scheduleCapabilityRefresh c tid cid = some t) : SamePins w t := by
  unfold scheduleCapabilityRefresh at h
  split_ifs at h with hf hj
  · exact Option.some.inj h ▸ SamePins.refl w
  · refine Option.some.inj h ▸ samePins_refreshCapabilities c ?_
    rw [pins, hj]
    rfl

theorem samePins_sent {c : Coordinator} {outcome : SendOutcome}
    (h : w.sent c cid outcome tid = some t) : SamePins w t := by
  unfold sent at h
  split_ifs at h
  · exact samePins_scheduleCapabilityRefresh h
  · exact Option.some.inj h ▸ SamePins.refl w

theorem samePins_finishRefresh {answer : Option Capabilities} (h : w.pins tid = none) :
    SamePins w (w.finishRefresh tid cid answer) := by
  cases answer with
  | none => exact SamePins.setJob samePins_releaseCapabilities h rfl
  | some reported =>
    have hm : SamePins w (w.modify cid (fun c =>
        { c with lockCapabilities := reported, capabilitiesFinal := true })) :=
      samePins_modify (fun _ => rfl)
    have hs : SamePins w ((w.modify cid (fun c =>
        { c with lockCapabilities := reported, capabilitiesFinal := true })).setOptions
          (w.entry.options.set optionCapabilities (.mapping reported))) :=
      hm.trans ⟨rfl, rfl⟩
    exact SamePins.setJob (hs.trans samePins_releaseCapabilities) h rfl

theorem holder_releasePin : (w.releasePin cid).holder = Function.update w.holder cid none := by
  rw [releasePin, holder_modify]
  simp only [FifoLock.holder_release]
  cases w.coordinators cid <;> rfl

theorem pins_finishPin (op : PinOp) (outcome : SendOutcome) :
    (w.finishPin tid cid op outcome).pins = Function.update w.pins tid none ∧
      (w.finishPin tid cid op outcome).holder = Function.update w.holder cid none := by
  have hsaved : SamePins w (if outcome.delivered then
      ((w.loadSlots cid).setSlots cid (op.record ((w.loadSlots cid).slotsOf cid))).saveSlots cid
      else w) := by
    split_ifs
    · exact samePins_loadSlots.trans ((samePins_setSlots _).trans samePins_saveSlots)
    · exact SamePins.refl w
  constructor
  · simp only [finishPin, pins_setJob, Job.pinPart]
    exact congrArg (fun p => Function.update p tid none) hsaved.1
  · change (releasePin _ cid).holder = _
    rw [holder_releasePin]
    exact congrArg (fun p => Function.update p cid none) hsaved.2

end EntryState

/-- What a turn does to the PIN operations and the holders of the PIN locks. -/
inductive PinMove (w t : EntryState) : Turn → Prop
  | quiet {turn : Turn} (same : EntryState.SamePins w t)
      (hexec : executions (w.events turn) = [])
      (hpin : ∀ op, Effect.pin op ∉ completions (w.events turn)) : PinMove w t turn
  | wait {tid : JobId} {cid : CoordinatorId} {op : PinOp} (idle : w.pins tid = none)
      (writable : firstUserSlot w.entry.options ≤ op.slot)
      (hpins : t.pins = Function.update w.pins tid (some (cid, op, .acquiring)))
      (hholder : t.holder = w.holder) : PinMove w t (.call tid cid op)
  | start {tid : JobId} {cid : CoordinatorId} {op : PinOp} (idle : w.pins tid = none)
      (writable : firstUserSlot w.entry.options ≤ op.slot) (free : w.holder cid = none)
      (hpins : t.pins = Function.update w.pins tid (some (cid, op, .sending op.request false)))
      (hholder : t.holder = Function.update w.holder cid (some tid)) : PinMove w t (.call tid cid op)
  | take {tid : JobId} {cid : CoordinatorId} {op : PinOp}
      (waiting : w.pins tid = some (cid, op, .acquiring)) (free : w.holder cid = none)
      (hpins : t.pins = Function.update w.pins tid (some (cid, op, .sending op.request false)))
      (hholder : t.holder = Function.update w.holder cid (some tid)) : PinMove w t (.acquired tid)
  | execute {tid : JobId} {cid : CoordinatorId} {op : PinOp} {request : ClusterCommand}
      {executed : Bool} (sending : w.pins tid = some (cid, op, .sending request executed))
      (hpins : t.pins = Function.update w.pins tid (some (cid, op, .sending request true)))
      (hholder : t.holder = w.holder) : PinMove w t (.executes tid)
  | finish {tid : JobId} {cid : CoordinatorId} {op : PinOp} {request : ClusterCommand}
      {executed : Bool} {outcome : SendOutcome} {background : JobId}
      (sending : w.pins tid = some (cid, op, .sending request executed))
      (taken : outcome.delivered = true → executed = true)
      (hpins : t.pins = Function.update w.pins tid none)
      (hholder : t.holder = Function.update w.holder cid none) :
      PinMove w t (.answered tid outcome background)
  | leaveQueue {tid : JobId} {cid : CoordinatorId} {op : PinOp}
      (waiting : w.pins tid = some (cid, op, .acquiring))
      (hpins : t.pins = Function.update w.pins tid none)
      (hholder : t.holder = w.holder) : PinMove w t (.unwind tid)
  | leaveSend {tid : JobId} {cid : CoordinatorId} {op : PinOp} {request : ClusterCommand}
      {executed : Bool} (sending : w.pins tid = some (cid, op, .sending request executed))
      (hpins : t.pins = Function.update w.pins tid none)
      (hholder : t.holder = Function.update w.holder cid none) : PinMove w t (.unwind tid)

namespace EntryState

variable {w t : EntryState} {cid : CoordinatorId} {tid : JobId}

theorem pinMove_call {c : Coordinator} {op : PinOp} (hc : w.coordinators cid = some c)
    (hidle : w.jobs tid = .idle) : PinMove w (w.callPin c tid cid op) (.call tid cid op) := by
  have hpins : w.pins tid = none := by
    rw [pins, hidle]
    rfl
  have hhold : w.holder cid = c.pinLock.holder := by
    rw [holder, hc]
    rfl
  unfold callPin
  split
  · exact .quiet (SamePins.setJob (SamePins.refl w) hpins rfl) rfl (by simp [events, completions])
  · rename_i hok
    have hle := checkWritable_ok.mp hok
    split
    · rename_i lock hacq
      have hlock := FifoLock.holder_of_acquire hacq
      refine .start hpins hle (hhold.trans hlock.1) ?_ ?_
      · rw [startSend, pins_setJob]
        rfl
      · change (w.modify cid _).holder = _
        rw [holder_modify_some hc, hlock.2]
    · rename_i lock hacq
      have hlock := FifoLock.holder_of_acquire_wait hacq
      refine .wait hpins hle ?_ ?_
      · rw [pins_setJob]
        rfl
      · change (w.modify cid _).holder = _
        rw [holder_modify_some hc, hlock, ← hhold]
        exact Function.update_eq_self ..

theorem pinMove_acquired (h : w.acquired tid = some t) : PinMove w t (.acquired tid) := by
  unfold acquired at h
  split at h
  · rename_i cid op hjob
    obtain ⟨c, hc, h⟩ := Option.bind_eq_some_iff.mp h
    obtain ⟨lock, hlock, h⟩ := Option.bind_eq_some_iff.mp h
    have hh := FifoLock.holder_of_take hlock
    have hhold : w.holder cid = c.pinLock.holder := by
      rw [holder, hc]
      rfl
    rw [← Option.some.inj h]
    refine .take (pins_of_job hjob) (hhold.trans hh.1) ?_ ?_
    · rw [startSend, pins_setJob]
      rfl
    · change (w.modify cid _).holder = _
      rw [holder_modify_some hc, hh.2]
  · rename_i cid hjob
    have hpins : w.pins tid = none := by
      rw [pins, hjob]
      rfl
    obtain ⟨c, -, h⟩ := Option.bind_eq_some_iff.mp h
    obtain ⟨lock, -, h⟩ := Option.bind_eq_some_iff.mp h
    have hm : SamePins w (w.modify cid (fun c => { c with capabilitiesLock := lock })) :=
      samePins_modify (fun _ => rfl)
    refine .quiet ?_ rfl (by simp [events, completions])
    split_ifs at h
    · rw [← Option.some.inj h]
      exact SamePins.setJob (hm.trans samePins_releaseCapabilities) hpins rfl
    · rw [← Option.some.inj h]
      exact SamePins.setJob hm hpins rfl
  · simp at h

theorem pinMove_answered {outcome : SendOutcome} {background : JobId}
    (h : w.answered tid outcome background = some t) :
    PinMove w t (.answered tid outcome background) := by
  obtain ⟨cid, op, request, executed, c, r, hjob, htaken, -, hr, rfl⟩ := answered_cases h
  have hsame := samePins_sent hr
  refine .finish (pins_of_job hjob) htaken ?_ ?_
  · rw [(pins_finishPin op outcome).1, hsame.1]
  · rw [(pins_finishPin op outcome).2, hsame.2]

theorem pinMove_cancel (h : w.cancel tid = some t) : PinMove w t (.cancel tid) := by
  refine .quiet ?_ rfl (by simp [events, completions])
  unfold cancel at h
  split at h
  · exact Option.some.inj h ▸ samePins_modify (fun _ => FifoLock.holder_cancelWait)
  · exact Option.some.inj h ▸ samePins_modify (fun _ => rfl)
  · simp at h

theorem pinMove_unwind (h : w.unwind tid = some t) : PinMove w t (.unwind tid) := by
  unfold unwind at h
  split at h
  · rename_i cid op hjob
    rw [← Option.some.inj h]
    exact .leaveQueue (pins_of_job hjob) (pins_setJob _)
      (holder_modify_of (fun _ => FifoLock.holder_abandon))
  · rename_i cid op request executed hjob
    rw [← Option.some.inj h]
    exact .leaveSend (pins_of_job hjob) (pins_setJob _) holder_releasePin
  · rename_i cid hjob
    have hpins : w.pins tid = none := by
      rw [pins, hjob]
      rfl
    refine .quiet ?_ rfl (by simp [events, completions])
    rw [← Option.some.inj h]
    refine SamePins.setJob ?_ hpins rfl
    exact samePins_modify (fun _ => rfl)
  · rename_i cid hjob
    have hpins : w.pins tid = none := by
      rw [pins, hjob]
      rfl
    refine .quiet ?_ rfl (by simp [events, completions])
    rw [← Option.some.inj h]
    refine SamePins.setJob ?_ hpins rfl
    exact samePins_modify (fun _ => rfl)
  · simp at h

theorem pinMove_build (h : w.step (.build cid) = some t) : PinMove w t (.build cid) := by
  simp only [step] at h
  split_ifs at h with hnone
  refine .quiet ⟨?_, ?_⟩ rfl (by simp [events, completions])
  · exact Option.some.inj h ▸ rfl
  · rw [← Option.some.inj h]
    funext other
    by_cases ho : other = cid
    · subst ho
      simp only [holder, Function.update_self, Option.isNone_iff_eq_none.mp hnone]
      rfl
    · simp only [holder, Function.update_of_ne ho]

theorem step_pinMove {turn : Turn} (h : w.step turn = some t) : PinMove w t turn := by
  cases turn with
  | build cid => exact pinMove_build h
  | publish cid =>
    simp only [step] at h
    split_ifs at h
    exact Option.some.inj h ▸ .quiet ⟨rfl, rfl⟩ rfl (by simp [events, completions])
  | giveUp cid =>
    exact Option.some.inj h ▸ .quiet ⟨rfl, rfl⟩ rfl (by simp [events, completions])
  | unload => exact Option.some.inj h ▸ .quiet ⟨rfl, rfl⟩ rfl (by simp [events, completions])
  | call tid cid op =>
    obtain ⟨c, hc, h⟩ := Option.bind_eq_some_iff.mp h
    split_ifs at h with hidle
    exact Option.some.inj h ▸ pinMove_call hc hidle
  | refresh tid cid =>
    obtain ⟨c, -, h⟩ := Option.bind_eq_some_iff.mp h
    exact .quiet (samePins_scheduleCapabilityRefresh h) rfl (by simp [events, completions])
  | acquired tid => exact pinMove_acquired h
  | executes tid =>
    simp only [step] at h
    split at h
    · rename_i cid op request executed hjob
      rw [← Option.some.inj h]
      exact .execute (pins_of_job hjob) (pins_setJob _) rfl
    · simp at h
  | answered tid outcome background => exact pinMove_answered h
  | capabilitiesRead tid answer =>
    simp only [step] at h
    split at h
    · rename_i cid hjob
      rw [← Option.some.inj h]
      refine .quiet (samePins_finishRefresh (by rw [pins, hjob]; rfl)) ?_ ?_
      · cases answer <;> rfl
      · cases answer <;> simp [events, completions]
    · simp at h
  | cancel tid => exact pinMove_cancel h
  | unwind tid => exact pinMove_unwind h
  | setSlotName cid slot name =>
    simp only [step] at h
    split_ifs at h
    exact Option.some.inj h ▸ .quiet (samePins_setSlotName slot name) rfl
      (by simp [events, completions])
  | settings reservedSlots =>
    simp only [step] at h
    split_ifs at h
    exact Option.some.inj h ▸ .quiet ⟨rfl, rfl⟩ rfl (by simp [events, completions])

end EntryState

/-- The operation whose send has started and whose save has not ended. -/
def EntryState.inFlight (w : EntryState) (tid : JobId) : Option PinOp :=
  match w.pins tid with
  | some (_, op, .sending ..) => some op
  | _ => none

theorem inFlight_eq_some {w : EntryState} {tid : JobId} {op : PinOp} :
    w.inFlight tid = some op ↔
      ∃ cid request executed, w.pins tid = some (cid, op, .sending request executed) := by
  unfold EntryState.inFlight
  constructor
  · intro h
    split at h
    · rename_i cid op' request executed hp
      obtain rfl := Option.some.inj h
      exact ⟨cid, request, executed, hp⟩
    · simp at h
  · rintro ⟨cid, request, executed, h⟩
    simp only [h]

/-- The job that sends holds the PIN lock of its coordinator. -/
def Held (w : EntryState) : Prop :=
  ∀ {tid cid op request executed},
    w.pins tid = some (cid, op, .sending request executed) → w.holder cid = some tid

theorem pins_of_update_none {w : EntryState} {tid a : JobId}
    {p : CoordinatorId × PinOp × PinStage}
    (h : Function.update w.pins tid none a = some p) : a ≠ tid ∧ w.pins a = some p := by
  by_cases he : a = tid
  · rw [he, Function.update_self] at h
    cases h
  · rw [Function.update_of_ne he] at h
    exact ⟨he, h⟩

namespace Held

variable {w t : EntryState} {tid : JobId} {cid : CoordinatorId} {op : PinOp}

theorem unique (h : Held w) {a b : JobId} {p q : PinOp} {request request' : ClusterCommand}
    {executed executed' : Bool} (ha : w.pins a = some (cid, p, .sending request executed))
    (hb : w.pins b = some (cid, q, .sending request' executed')) : a = b :=
  Option.some.inj ((h ha).symm.trans (h hb))

theorem send (h : Held w) (hfree : w.holder cid = none)
    (hpins : t.pins = Function.update w.pins tid (some (cid, op, .sending op.request false)))
    (hholder : t.holder = Function.update w.holder cid (some tid)) : Held t := by
  intro a c op' request executed ha
  rw [hpins] at ha
  rw [hholder]
  by_cases he : a = tid
  · rw [he, Function.update_self] at ha
    have hc : cid = c := congrArg Prod.fst (Option.some.inj ha)
    rw [← hc, Function.update_self, he]
  · rw [Function.update_of_ne he] at ha
    have hh := h ha
    have hc : c ≠ cid := by
      rintro rfl
      rw [hfree] at hh
      cases hh
    rw [Function.update_of_ne hc]
    exact hh

theorem leave_send {request : ClusterCommand} {executed : Bool} (h : Held w)
    (hsend : w.pins tid = some (cid, op, .sending request executed))
    (hpins : t.pins = Function.update w.pins tid none)
    (hholder : t.holder = Function.update w.holder cid none) : Held t := by
  intro a c op' request' executed' ha
  rw [hpins] at ha
  obtain ⟨hne, ha⟩ := pins_of_update_none ha
  have hc : c ≠ cid := by
    rintro rfl
    exact hne (h.unique ha hsend)
  rw [hholder, Function.update_of_ne hc]
  exact h ha

theorem step {turn : Turn} (h : Held w) (hm : PinMove w t turn) : Held t := by
  cases hm with
  | quiet same hexec hpin =>
    intro a c op request executed ha
    rw [same.2]
    exact h (same.1 ▸ ha)
  | @wait tid cid op idle writable hpins hholder =>
    intro a c op' request executed ha
    rw [hpins] at ha
    rw [hholder]
    by_cases he : a = tid
    · rw [he, Function.update_self] at ha
      cases ha
    · rw [Function.update_of_ne he] at ha
      exact h ha
  | start idle writable free hpins hholder => exact h.send free hpins hholder
  | take waiting free hpins hholder => exact h.send free hpins hholder
  | @execute tid cid op request executed sending hpins hholder =>
    intro a c op' request' executed' ha
    rw [hpins] at ha
    rw [hholder]
    by_cases he : a = tid
    · rw [he, Function.update_self] at ha
      have hc : cid = c := congrArg Prod.fst (Option.some.inj ha)
      rw [he, ← hc]
      exact h sending
    · rw [Function.update_of_ne he] at ha
      exact h ha
  | finish sending taken hpins hholder => exact h.leave_send sending hpins hholder
  | leaveQueue waiting hpins hholder =>
    intro a c op' request' executed' ha
    rw [hpins] at ha
    rw [hholder]
    exact h (pins_of_update_none ha).2
  | leaveSend sending hpins hholder => exact h.leave_send sending hpins hholder

end Held

/-- A send goes on until it is answered or cancelled. -/
theorem sending_step {w t : EntryState} {turn : Turn} {tid : JobId} {cid : CoordinatorId}
    {op : PinOp} {request : ClusterCommand} {executed : Bool} (h : w.step turn = some t)
    (hs : w.pins tid = some (cid, op, .sending request executed)) :
    (∃ executed', t.pins tid = some (cid, op, .sending request executed')) ∨
      (∃ outcome background, turn = .answered tid outcome background) ∨ turn = .unwind tid := by
  have hkeep : ∀ {a v}, t.pins = Function.update w.pins a v → tid ≠ a →
      ∃ executed', t.pins tid = some (cid, op, .sending request executed') := by
    intro a v hpins hne
    exact ⟨executed, by rw [hpins, Function.update_of_ne hne, hs]⟩
  have hother : ∀ {a p}, w.pins a = p → some (cid, op, .sending request executed) ≠ p → tid ≠ a := by
    rintro a p hp hne rfl
    exact hne (hs.symm.trans hp)
  cases EntryState.step_pinMove h with
  | quiet same hexec hpin => exact Or.inl ⟨executed, by rw [same.1, hs]⟩
  | wait idle writable hpins hholder => exact Or.inl (hkeep hpins (hother idle (by simp)))
  | start idle writable free hpins hholder => exact Or.inl (hkeep hpins (hother idle (by simp)))
  | take waiting free hpins hholder => exact Or.inl (hkeep hpins (hother waiting (by simp)))
  | @execute a cid' op' request' executed' sending hpins hholder =>
    by_cases ha : tid = a
    · subst ha
      rw [hs] at sending
      cases sending
      exact Or.inl ⟨true, by rw [hpins, Function.update_self]⟩
    · exact Or.inl (hkeep hpins ha)
  | @finish a cid' op' request' executed' outcome background sending taken hpins hholder =>
    by_cases ha : tid = a
    · subst ha
      exact Or.inr (Or.inl ⟨outcome, background, rfl⟩)
    · exact Or.inl (hkeep hpins ha)
  | leaveQueue waiting hpins hholder => exact Or.inl (hkeep hpins (hother waiting (by simp)))
  | @leaveSend a cid' op' request' executed' sending hpins hholder =>
    by_cases ha : tid = a
    · subst ha
      exact Or.inr (Or.inr rfl)
    · exact Or.inl (hkeep hpins ha)

end OnestiLock
