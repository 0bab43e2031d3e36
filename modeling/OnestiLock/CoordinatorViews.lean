import OnestiLock.CoordinatorMoves

/-! What the coordinators hold in memory against what is stored: a save reaches
the published coordinator, and not the one that waits to be published. -/

namespace OnestiLock

open Transition

namespace EntryState

variable {w t r : EntryState} {cid : CoordinatorId} {tid : JobId}

/-- The slots a coordinator has in memory. -/
def memory (w : EntryState) (cid : CoordinatorId) : Option Slots :=
  (w.coordinators cid).map (fun c => c.slots)

theorem memory_modify (f : Coordinator → Coordinator) :
    (w.modify cid f).memory =
      Function.update w.memory cid ((w.coordinators cid).map (fun c => (f c).slots)) := by
  funext other
  by_cases h : other = cid
  · subst h
    rw [Function.update_self, memory, coordinators_modify_self, Option.map_map]
    rfl
  · rw [Function.update_of_ne h]
    exact congrArg (Option.map Coordinator.slots) (Function.update_of_ne h ..)

theorem memory_modify_of {f : Coordinator → Coordinator} (hf : ∀ c, (f c).slots = c.slots) :
    (w.modify cid f).memory = w.memory := by
  rw [memory_modify]
  simp only [hf]
  exact Function.update_eq_self ..

theorem memory_setSlots (slots : Slots) :
    (w.setSlots cid slots).memory =
      Function.update w.memory cid ((w.memory cid).map (fun _ => slots)) := by
  rw [setSlots, memory_modify]
  cases h : w.coordinators cid <;> simp [memory, h]

theorem memory_loadSlots :
    (w.loadSlots cid).memory =
      Function.update w.memory cid ((w.memory cid).map (fun _ => w.entry.options.loadSlots)) := by
  rw [loadSlots, memory_modify]
  cases h : w.coordinators cid <;> simp [memory, h]

/-- Neither the stored slots nor those in memory differ, nor what is published. -/
structure SameSlots (w t : EntryState) : Prop where
  runtimeData : t.entry.runtimeData = w.entry.runtimeData
  settingUp : t.settingUp = w.settingUp
  stored : t.store.slots = w.store.slots
  memory : t.memory = w.memory

theorem SameSlots.refl (w : EntryState) : SameSlots w w := ⟨rfl, rfl, rfl, rfl⟩

theorem SameSlots.trans (h : SameSlots w t) (h' : SameSlots t r) : SameSlots w r :=
  ⟨h'.runtimeData.trans h.runtimeData, h'.settingUp.trans h.settingUp,
    h'.stored.trans h.stored, h'.memory.trans h.memory⟩

theorem sameSlots_modify {f : Coordinator → Coordinator} (hf : ∀ c, (f c).slots = c.slots) :
    SameSlots w (w.modify cid f) :=
  ⟨rfl, rfl, rfl, memory_modify_of hf⟩

theorem SameSlots.setJob (h : SameSlots w t) (job : Job) : SameSlots w (t.setJob tid job) :=
  ⟨h.runtimeData, h.settingUp, h.stored, h.memory⟩

theorem SameSlots.setOption (h : SameSlots w t) (key : String) (value : OptionValue) :
    SameSlots w (t.setOptions (t.entry.options.set key value)) :=
  ⟨h.runtimeData, h.settingUp, h.stored, h.memory⟩

theorem sameSlots_callPin (c : Coordinator) (op : PinOp) : SameSlots w (w.callPin c tid cid op) := by
  unfold callPin
  split
  · exact (SameSlots.refl w).setJob _
  · split
    · refine SameSlots.setJob ?_ _
      exact sameSlots_modify (fun _ => rfl)
    · refine SameSlots.setJob ?_ _
      exact sameSlots_modify (fun _ => rfl)

theorem sameSlots_refreshCapabilities (c : Coordinator) :
    SameSlots w (w.refreshCapabilities c tid cid) := by
  unfold refreshCapabilities
  split_ifs
  · exact (SameSlots.refl w).setJob _
  · split
    · refine SameSlots.setJob ?_ _
      exact sameSlots_modify (fun _ => rfl)
    · refine SameSlots.setJob ?_ _
      exact sameSlots_modify (fun _ => rfl)

theorem sameSlots_scheduleCapabilityRefresh {c : Coordinator}
    (h : w.scheduleCapabilityRefresh c tid cid = some t) : SameSlots w t := by
  unfold scheduleCapabilityRefresh at h
  split_ifs at h
  · exact Option.some.inj h ▸ SameSlots.refl w
  · exact Option.some.inj h ▸ sameSlots_refreshCapabilities c

theorem sameSlots_sent {c : Coordinator} {outcome : SendOutcome}
    (h : w.sent c cid outcome tid = some t) : SameSlots w t := by
  unfold sent at h
  split_ifs at h
  · exact sameSlots_scheduleCapabilityRefresh h
  · exact Option.some.inj h ▸ SameSlots.refl w

theorem sameSlots_releasePin : SameSlots w (w.releasePin cid) := sameSlots_modify (fun _ => rfl)

theorem sameSlots_releaseCapabilities : SameSlots w (w.releaseCapabilities cid) :=
  sameSlots_modify (fun _ => rfl)

theorem sameSlots_finishRefresh (answer : Option Capabilities) :
    SameSlots w (w.finishRefresh tid cid answer) := by
  cases answer with
  | none => exact sameSlots_releaseCapabilities.setJob _
  | some reported =>
    refine SameSlots.setJob (SameSlots.trans ?_ sameSlots_releaseCapabilities) _
    refine SameSlots.setOption ?_ _ _
    exact sameSlots_modify (fun _ => rfl)

theorem sameSlots_acquired (h : w.acquired tid = some t) : SameSlots w t := by
  unfold acquired at h
  split at h
  · obtain ⟨c, -, h⟩ := Option.bind_eq_some_iff.mp h
    obtain ⟨lock, -, h⟩ := Option.bind_eq_some_iff.mp h
    refine Option.some.inj h ▸ SameSlots.setJob ?_ _
    exact sameSlots_modify (fun _ => rfl)
  · rename_i cid hjob
    obtain ⟨c, -, h⟩ := Option.bind_eq_some_iff.mp h
    obtain ⟨lock, -, h⟩ := Option.bind_eq_some_iff.mp h
    have hm : SameSlots w (w.modify cid (fun c => { c with capabilitiesLock := lock })) :=
      sameSlots_modify (fun _ => rfl)
    split_ifs at h
    · exact Option.some.inj h ▸ (hm.trans sameSlots_releaseCapabilities).setJob _
    · exact Option.some.inj h ▸ hm.setJob _
  · simp at h

theorem sameSlots_cancel (h : w.cancel tid = some t) : SameSlots w t := by
  unfold cancel at h
  split at h
  · exact Option.some.inj h ▸ sameSlots_modify (fun _ => rfl)
  · exact Option.some.inj h ▸ sameSlots_modify (fun _ => rfl)
  · simp at h

theorem sameSlots_unwind (h : w.unwind tid = some t) : SameSlots w t := by
  unfold unwind at h
  split at h
  · refine Option.some.inj h ▸ SameSlots.setJob ?_ _
    exact sameSlots_modify (fun _ => rfl)
  · exact Option.some.inj h ▸ sameSlots_releasePin.setJob _
  · refine Option.some.inj h ▸ SameSlots.setJob ?_ _
    exact sameSlots_modify (fun _ => rfl)
  · exact Option.some.inj h ▸ sameSlots_releaseCapabilities.setJob _
  · simp at h

/-- One coordinator has put some slots in its memory and into the options, and
the published one has taken them over. -/
structure SavedBy (w t : EntryState) (cid : CoordinatorId) (slots : Slots) : Prop where
  runtimeData : t.entry.runtimeData = w.entry.runtimeData
  settingUp : t.settingUp = w.settingUp
  stored : t.store.slots = getSlot slots
  memory : ∀ other, t.memory other =
    if other = cid ∨ w.entry.runtimeData = some other then (w.memory other).map (fun _ => slots)
    else w.memory other

theorem savedBy_saveSlots (h : (w.coordinators cid).isSome) (slots : Slots) :
    SavedBy w ((w.setSlots cid slots).saveSlots cid) cid slots := by
  obtain ⟨c, hc⟩ := Option.isSome_iff_exists.mp h
  have hset : (w.setSlots cid slots).coordinators cid = some { c with slots := slots } := by
    rw [setSlots, coordinators_modify_self, hc]
    rfl
  have hmem : ∀ other, (w.setSlots cid slots).memory other =
      if other = cid then (w.memory other).map (fun _ => slots) else w.memory other := by
    intro other
    rw [memory_setSlots]
    by_cases ho : other = cid
    · rw [if_pos ho, ho, Function.update_self]
    · rw [if_neg ho, Function.update_of_ne ho]
  have hstored : ((w.setSlots cid slots).saveSlots cid).store.slots = getSlot slots := by
    rw [store, options_saveSlots_setSlots h, Options.store, Options.loadSlots_saveSlots]
  have hrun : (w.setSlots cid slots).entry.runtimeData = w.entry.runtimeData := rfl
  refine ⟨?_, ?_, hstored, fun other => ?_⟩
  all_goals simp only [saveSlots, hset, setOptions, hrun]
  · cases hr : w.entry.runtimeData with
    | none => rfl
    | some current =>
      simp only
      split_ifs <;> rfl
  · cases hr : w.entry.runtimeData with
    | none => rfl
    | some current =>
      simp only
      split_ifs <;> rfl
  · cases hr : w.entry.runtimeData with
    | none =>
      simp only [reduceCtorEq, or_false]
      exact hmem other
    | some current =>
      simp only [Option.some.injEq]
      by_cases hcur : current = cid
      · rw [if_pos hcur]
        have hiff : (other = cid ∨ current = other) ↔ other = cid := by
          rw [hcur]
          exact ⟨fun h => h.elim id Eq.symm, Or.inl⟩
        simp only [hiff]
        exact hmem other
      · rw [if_neg hcur, adoptStoredSlots, memory_loadSlots, Options.loadSlots_saveSlots]
        by_cases ho : other = current
        · subst ho
          rw [Function.update_self, if_pos (Or.inr rfl)]
          exact congrArg (Option.map (fun _ => slots))
            ((hmem other).trans (if_neg (fun he => hcur he)))
        · rw [Function.update_of_ne ho]
          have hiff : (other = cid ∨ current = other) ↔ other = cid :=
            ⟨fun h => h.elim id (fun he => absurd he.symm ho), Or.inl⟩
          simp only [hiff]
          exact hmem other

/-- What the memory of a coordinator shows is what is stored. -/
def Shows (w : EntryState) (cid : CoordinatorId) : Prop :=
  ∃ slots, w.memory cid = some slots ∧ getSlot slots = w.store.slots

/-- The published coordinator and those being set up. -/
def Watched (w : EntryState) (cid : CoordinatorId) : Prop :=
  w.entry.runtimeData = some cid ∨ cid ∈ w.settingUp

/-- No slot changes while a coordinator is built and not yet published. -/
def SavedOutsideSetup (w : EntryState) (turn : Turn) : Prop :=
  ∀ e ∈ completions (w.events turn), w.settingUp = [] ∨ (w.store.apply e).slots = w.store.slots

def AllShown (w : EntryState) : Prop := ∀ cid, w.Watched cid → w.Shows cid

namespace AllShown

theorem sameSlots (h : AllShown w) (hs : SameSlots w t) : AllShown t := by
  intro cid hw
  unfold Watched at hw
  rw [hs.runtimeData, hs.settingUp] at hw
  obtain ⟨slots, hm, hv⟩ := h cid hw
  exact ⟨slots, by rw [hs.memory, hm], hv.trans hs.stored.symm⟩

theorem loadSlots (h : AllShown w) : AllShown (w.loadSlots cid) := by
  intro other hw
  obtain ⟨slots, hm, hv⟩ := h other hw
  by_cases ho : other = cid
  · refine ⟨w.entry.options.loadSlots, ?_, rfl⟩
    rw [memory_loadSlots, ho, Function.update_self, ← ho, hm]
    rfl
  · exact ⟨slots, by rw [memory_loadSlots, Function.update_of_ne ho, hm], hv⟩

/-- After a save the writer and the published coordinator show it, and so do
those being set up when nothing they loaded has changed. -/
theorem savedBy {slots : Slots} (h : AllShown w) (hs : SavedBy w t cid slots)
    (hset : w.settingUp = [] ∨ t.store.slots = w.store.slots) : AllShown t := by
  intro other hw
  unfold Watched at hw
  rw [hs.runtimeData, hs.settingUp] at hw
  obtain ⟨old, hm, hv⟩ := h other hw
  have hmem := hs.memory other
  by_cases ho : other = cid ∨ w.entry.runtimeData = some other
  · exact ⟨slots, by rw [hmem, if_pos ho, hm]; rfl, hs.stored.symm⟩
  · refine ⟨old, by rw [hmem, if_neg ho, hm], ?_⟩
    rcases hset with hset | hset
    · rcases hw with hw | hw
      · exact absurd (Or.inr hw) ho
      · rw [hset] at hw
        cases hw
    · exact hv.trans hset.symm

theorem setSlotName {slot : Int} {name : String} (h : AllShown w)
    (hc : (w.coordinators cid).isSome)
    (hset : w.settingUp = [] ∨ (w.store.apply (.name slot name)).slots = w.store.slots) :
    AllShown (w.setSlotName cid slot name) := by
  have hstore := store_setSlotName hc slot name
  have hl : ((w.loadSlots cid).coordinators cid).isSome := by
    rw [EntryState.loadSlots, isSome_coordinators_modify]
    exact hc
  cases hr : renameSlot w.entry.options.loadSlots slot name with
  | none =>
    simp only [EntryState.setSlotName, slotsOf_loadSlots hc, hr]
    exact h.loadSlots
  | some slots =>
    simp only [EntryState.setSlotName, slotsOf_loadSlots hc, hr] at hstore ⊢
    exact h.loadSlots.savedBy (savedBy_saveSlots hl slots)
      (hset.imp_right (fun he => (congrArg Store.slots hstore).trans he))

theorem finishPin {op : PinOp} {outcome : SendOutcome} (h : AllShown w)
    (hc : (w.coordinators cid).isSome)
    (hset : outcome.delivered = true →
      w.settingUp = [] ∨ (w.store.apply (.pin op)).slots = w.store.slots) :
    AllShown (w.finishPin tid cid op outcome) := by
  have hl : ((w.loadSlots cid).coordinators cid).isSome := by
    rw [EntryState.loadSlots, isSome_coordinators_modify]
    exact hc
  by_cases hd : outcome.delivered = true
  · simp only [EntryState.finishPin, hd, if_true, slotsOf_loadSlots hc]
    refine AllShown.sameSlots ?_ (sameSlots_releasePin.setJob _)
    refine h.loadSlots.savedBy (savedBy_saveSlots hl _) ((hset hd).imp_right (fun he => ?_))
    rw [store, options_saveSlots_setSlots hl]
    exact (congrArg Store.slots (Options.store_record _ op)).trans he
  · simp only [EntryState.finishPin, hd, Bool.false_eq_true, if_false]
    exact h.sameSlots (sameSlots_releasePin.setJob _)

theorem answered {outcome : SendOutcome} {background : JobId} (h : AllShown w)
    (hg : SavedOutsideSetup w (.answered tid outcome background))
    (ha : w.answered tid outcome background = some t) : AllShown t := by
  obtain ⟨cid, op, request, executed, c, r, hjob, -, hc, hr, rfl⟩ := answered_cases ha
  have hsame := sameSlots_sent hr
  have hstore : r.store = w.store := congrArg (fun e => e.options.store) (entry_sent hr).1
  refine (h.sameSlots hsame).finishPin (((entry_sent hr).2 cid).trans (by rw [hc]; rfl)) ?_
  intro hd
  rw [hsame.settingUp, hstore]
  apply hg
  simp [events, hjob, hd, completions]

theorem build (h : AllShown w) (hstep : w.step (.build cid) = some t) : AllShown t := by
  simp only [step] at hstep
  split_ifs at hstep with hnone
  rw [← Option.some.inj hstep]
  intro other hw
  by_cases ho : other = cid
  · exact ⟨w.entry.options.loadSlots, by simp [memory, ho, Coordinator.new], rfl⟩
  · have hw' : w.Watched other := hw.imp_right (fun hm => (List.mem_cons.mp hm).resolve_left ho)
    obtain ⟨slots, hm, hv⟩ := h other hw'
    refine ⟨slots, ?_, hv⟩
    simpa only [memory, Function.update_of_ne ho] using hm

theorem step {turn : Turn} (h : AllShown w) (hg : SavedOutsideSetup w turn)
    (hstep : w.step turn = some t) : AllShown t := by
  cases turn with
  | build cid => exact h.build hstep
  | publish cid =>
    simp only [EntryState.step] at hstep
    split_ifs at hstep with hmem
    rw [← Option.some.inj hstep]
    rintro other (hw | hw)
    · obtain rfl := Option.some.inj hw
      exact h cid (Or.inr hmem)
    · exact h other (Or.inr (List.mem_of_mem_erase hw))
  | giveUp cid =>
    rw [← Option.some.inj hstep]
    exact fun other hw => h other (hw.imp_right List.mem_of_mem_erase)
  | unload =>
    rw [← Option.some.inj hstep]
    rintro other (hw | hw)
    · cases hw
    · exact h other (Or.inr hw)
  | call tid cid op =>
    obtain ⟨c, -, hstep⟩ := Option.bind_eq_some_iff.mp hstep
    split_ifs at hstep
    exact Option.some.inj hstep ▸ h.sameSlots (sameSlots_callPin c op)
  | refresh tid cid =>
    obtain ⟨c, -, hstep⟩ := Option.bind_eq_some_iff.mp hstep
    exact h.sameSlots (sameSlots_scheduleCapabilityRefresh hstep)
  | acquired tid => exact h.sameSlots (sameSlots_acquired hstep)
  | executes tid =>
    simp only [EntryState.step] at hstep
    split at hstep
    · exact Option.some.inj hstep ▸ h.sameSlots ((SameSlots.refl w).setJob _)
    · simp at hstep
  | answered tid outcome background => exact h.answered hg hstep
  | capabilitiesRead tid answer =>
    simp only [EntryState.step] at hstep
    split at hstep
    · exact Option.some.inj hstep ▸ h.sameSlots (sameSlots_finishRefresh answer)
    · simp at hstep
  | cancel tid => exact h.sameSlots (sameSlots_cancel hstep)
  | unwind tid => exact h.sameSlots (sameSlots_unwind hstep)
  | setSlotName cid slot name =>
    simp only [EntryState.step] at hstep
    split_ifs at hstep with hc
    exact Option.some.inj hstep ▸ h.setSlotName hc (hg _ (by simp [events, completions]))
  | settings reservedSlots =>
    simp only [EntryState.step] at hstep
    split_ifs at hstep
    exact Option.some.inj hstep ▸ h.sameSlots ((SameSlots.refl w).setOption _ _)

end AllShown

/-- A coordinator that is being set up while another one saves a change shows
the older slots once it is published. -/
theorem publish_stale {slots : Slots} {other : CoordinatorId} (hs : SavedBy w t other slots)
    (hset : cid ∈ w.settingUp) (hshow : w.Shows cid) (hne : cid ≠ other)
    (hpub : w.entry.runtimeData ≠ some cid) (hchange : t.store.slots ≠ w.store.slots) :
    ∃ r, t.step (.publish cid) = some r ∧ r.entry.runtimeData = some cid ∧ ¬ r.Shows cid := by
  have hmem : cid ∈ t.settingUp := hs.settingUp ▸ hset
  refine ⟨{ t with
    entry := { t.entry with runtimeData := some cid }
    settingUp := t.settingUp.erase cid }, if_pos hmem, rfl, ?_⟩
  rintro ⟨new, hm, hv⟩
  obtain ⟨old, hold, hview⟩ := hshow
  have hkeep : t.memory cid = w.memory cid :=
    (hs.memory cid).trans (if_neg (fun h => h.elim hne hpub))
  have hnew : t.memory cid = some new := hm
  obtain rfl := Option.some.inj (hold.symm.trans (hkeep.symm.trans hnew))
  exact hchange (hv.symm.trans hview)

end EntryState

/-- Unless a slot changes between the construction of a coordinator and its
publication, the published coordinator shows the stored slots. -/
theorem published_slots_current {w t : EntryState} {turns : List Turn}
    (hw : w.entry.runtimeData = none) (hset : w.settingUp = [])
    (hrun : exec EntryState.step w turns = some t)
    (hsaves : Along EntryState.step EntryState.SavedOutsideSetup w turns) {cid : CoordinatorId}
    (hcid : t.entry.runtimeData = some cid) :
    ∃ c, t.coordinators cid = some c ∧ ∀ slot, getSlot c.slots slot = t.store.slots slot := by
  have hstart : w.AllShown := by
    rintro other (h | h)
    · rw [hw] at h
      cases h
    · rw [hset] at h
      cases h
  have hall : t.AllShown :=
    exec_invariant_along (fun _ _ _ hs hg ht => hs.step hg ht) hstart hsaves hrun
  obtain ⟨slots, hm, hv⟩ := hall cid (Or.inl hcid)
  obtain ⟨c, hc, rfl⟩ := Option.map_eq_some_iff.mp hm
  exact ⟨c, hc, fun slot => congrFun hv slot⟩

/-- The write ends after the new coordinator is published. -/
def adoptedTurns : List Turn :=
  [.build 0, .publish 0, .call 1 0 (.setPin 5 "Ola" "56789"), .unload, .build 1, .publish 1,
    .executes 1, .answered 1 .ofDelivered 3]

theorem published_slots_current_adopted :
    ∃ t, exec EntryState.step (.fresh keptOptions) adoptedTurns = some t ∧
      ∃ c, t.coordinators 1 = some c ∧ getSlot c.slots 5 = ⟨"Ola", true⟩ := by
  have hrun : (exec EntryState.step (.fresh keptOptions) adoptedTurns).map
      (fun t => (t.entry.runtimeData, t.store.slots 5)) = some (some 1, ⟨"Ola", true⟩) := by
    decide +kernel
  obtain ⟨t, ht, he⟩ := Option.map_eq_some_iff.mp hrun
  have hquiet : Along EntryState.step
      (fun w turn => w.settingUp = [] ∨ (completions (w.events turn)).isEmpty = true)
      (.fresh keptOptions) adoptedTurns := by decide +kernel
  have hsaves : Along EntryState.step EntryState.SavedOutsideSetup (.fresh keptOptions)
      adoptedTurns := by
    apply hquiet.mono
    intro w turn h e he
    refine Or.inl (h.resolve_right (fun hempty => ?_))
    rw [List.isEmpty_iff.mp hempty] at he
    cases he
  obtain ⟨c, hc, hview⟩ := published_slots_current rfl rfl ht hsaves (congrArg Prod.fst he)
  exact ⟨t, ht, c, hc, (hview 5).trans (congrArg Prod.snd he)⟩

/-- The write ends while the new coordinator waits for its texts. -/
def lateTurns : List Turn :=
  [.build 0, .publish 0, .call 1 0 (.setPin 5 "Ola" "56789"), .executes 1, .unload, .build 1,
    .answered 1 .ofDelivered 3, .publish 1]

theorem published_slots_stale :
    ∃ t, exec EntryState.step (.fresh keptOptions) lateTurns = some t ∧
      t.entry.runtimeData = some 1 ∧
      (t.coordinators 1).map (fun c => getSlot c.slots 5) = some defaultSlot ∧
      t.store.slots 5 = ⟨"Ola", true⟩ := by
  have hrun : (exec EntryState.step (.fresh keptOptions) lateTurns).map
      (fun t => (t.entry.runtimeData, (t.coordinators 1).map (fun c => getSlot c.slots 5),
        t.store.slots 5)) = some (some 1, some defaultSlot, ⟨"Ola", true⟩) := by decide +kernel
  obtain ⟨t, ht, he⟩ := Option.map_eq_some_iff.mp hrun
  simp only [Prod.mk.injEq] at he
  exact ⟨t, ht, he⟩

end OnestiLock
