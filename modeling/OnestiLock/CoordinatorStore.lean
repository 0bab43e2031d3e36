import Mathlib.Data.List.Induction
import OnestiLock.Coordinator

/-! Every save goes on top of what is stored: the stored slots are the initial
ones with the effects of the completed operations, whatever the coordinators
that ran them held in memory. -/

namespace OnestiLock

open Transition

namespace EntryState

variable {w : EntryState} {cid : CoordinatorId} {tid : JobId}

@[simp] theorem entry_modify (f : Coordinator → Coordinator) : (w.modify cid f).entry = w.entry := rfl

@[simp] theorem entry_setJob (job : Job) : (w.setJob tid job).entry = w.entry := rfl

@[simp] theorem coordinators_setJob (job : Job) :
    (w.setJob tid job).coordinators = w.coordinators := rfl

theorem coordinators_modify_self (f : Coordinator → Coordinator) :
    (w.modify cid f).coordinators cid = (w.coordinators cid).map f := Function.update_self ..

@[simp] theorem isSome_coordinators_modify {other : CoordinatorId} (f : Coordinator → Coordinator) :
    ((w.modify cid f).coordinators other).isSome = (w.coordinators other).isSome := by
  by_cases h : other = cid
  · rw [h, coordinators_modify_self, Option.isSome_map]
  · exact congrArg Option.isSome (Function.update_of_ne h ..)

@[simp] theorem entry_loadSlots : (w.loadSlots cid).entry = w.entry := rfl

@[simp] theorem entry_adoptStoredSlots : (w.adoptStoredSlots cid).entry = w.entry := rfl

theorem slotsOf_loadSlots (h : (w.coordinators cid).isSome) :
    (w.loadSlots cid).slotsOf cid = w.entry.options.loadSlots := by
  obtain ⟨c, hc⟩ := Option.isSome_iff_exists.mp h
  simp [slotsOf, loadSlots, coordinators_modify_self, hc]

theorem options_saveSlots (h : (w.coordinators cid).isSome) :
    (w.saveSlots cid).entry.options = w.entry.options.saveSlots (w.slotsOf cid) := by
  obtain ⟨c, hc⟩ := Option.isSome_iff_exists.mp h
  simp only [saveSlots, slotsOf, hc]
  cases hr : w.entry.runtimeData with
  | none => simp only [setOptions, hr]
  | some current =>
    simp only [setOptions, hr]
    split_ifs <;> rfl

theorem options_saveSlots_setSlots (h : (w.coordinators cid).isSome) (slots : Slots) :
    ((w.setSlots cid slots).saveSlots cid).entry.options = w.entry.options.saveSlots slots := by
  obtain ⟨c, hc⟩ := Option.isSome_iff_exists.mp h
  rw [options_saveSlots (by rw [setSlots, isSome_coordinators_modify]; exact h)]
  simp [slotsOf, setSlots, coordinators_modify_self, hc]

theorem store_setSlotName (h : (w.coordinators cid).isSome) (slot : Int) (name : String) :
    (w.setSlotName cid slot name).store = w.store.apply (.name slot name) := by
  have hl : ((w.loadSlots cid).coordinators cid).isSome := by
    rw [loadSlots, isSome_coordinators_modify]
    exact h
  cases hr : renameSlot w.entry.options.loadSlots slot name with
  | none =>
    simp only [setSlotName, slotsOf_loadSlots h, hr]
    exact (Options.store_rename_none hr).symm
  | some slots =>
    simp only [setSlotName, slotsOf_loadSlots h, hr, store, options_saveSlots_setSlots hl]
    exact Options.store_rename hr

theorem entry_callPin (c : Coordinator) (op : PinOp) : (w.callPin c tid cid op).entry = w.entry := by
  unfold callPin
  split
  · rfl
  · split <;> rfl

theorem entry_refreshCapabilities (c : Coordinator) :
    (w.refreshCapabilities c tid cid).entry = w.entry := by
  unfold refreshCapabilities
  split_ifs
  · rfl
  · split <;> rfl

theorem isSome_refreshCapabilities (c : Coordinator) {other : CoordinatorId} :
    ((w.refreshCapabilities c tid cid).coordinators other).isSome =
      (w.coordinators other).isSome := by
  unfold refreshCapabilities
  split_ifs
  · rfl
  · split <;> exact isSome_coordinators_modify _

theorem entry_scheduleCapabilityRefresh {c : Coordinator} {t : EntryState}
    (h : w.scheduleCapabilityRefresh c tid cid = some t) :
    t.entry = w.entry ∧
      ∀ other, (t.coordinators other).isSome = (w.coordinators other).isSome := by
  unfold scheduleCapabilityRefresh at h
  split_ifs at h with hf hj
  · exact Option.some.inj h ▸ ⟨rfl, fun _ => rfl⟩
  · exact Option.some.inj h ▸ ⟨entry_refreshCapabilities c, fun _ => isSome_refreshCapabilities c⟩

theorem store_finishPin (h : (w.coordinators cid).isSome) (op : PinOp) (outcome : SendOutcome) :
    (w.finishPin tid cid op outcome).store =
      if outcome.delivered then w.store.apply (.pin op) else w.store := by
  have hl : ((w.loadSlots cid).coordinators cid).isSome := by
    rw [loadSlots, isSome_coordinators_modify]
    exact h
  by_cases hd : outcome.delivered = true
  · simp only [finishPin, hd, if_true, store, releasePin, entry_setJob, entry_modify,
      slotsOf_loadSlots h, options_saveSlots_setSlots hl, entry_loadSlots]
    exact Options.store_record ..
  · simp only [finishPin, hd, Bool.false_eq_true, if_false]
    rfl

theorem store_finishRefresh (answer : Option Capabilities) :
    (w.finishRefresh tid cid answer).store =
      answer.elim w.store (fun reported => w.store.apply (.capabilities reported)) := by
  cases answer with
  | none => rfl
  | some reported => rfl

theorem entry_sent {c : Coordinator} {outcome : SendOutcome} {t : EntryState}
    (h : w.sent c cid outcome tid = some t) :
    t.entry = w.entry ∧
      ∀ other, (t.coordinators other).isSome = (w.coordinators other).isSome := by
  unfold sent at h
  split_ifs at h
  · exact entry_scheduleCapabilityRefresh h
  · exact Option.some.inj h ▸ ⟨rfl, fun _ => rfl⟩

/-- The refresh that an answered send schedules, and the rest of the operation. -/
theorem answered_cases {t : EntryState} {outcome : SendOutcome} {background : JobId}
    (h : w.answered tid outcome background = some t) :
    ∃ cid op request executed c r, w.jobs tid = .pin cid op (.sending request executed) ∧
      (outcome.delivered = true → executed = true) ∧ w.coordinators cid = some c ∧
      w.sent c cid outcome background = some r ∧
      t = r.finishPin tid cid op outcome := by
  unfold answered at h
  split at h
  · rename_i cid op request executed hjob
    split_ifs at h with hd
    · obtain ⟨c, hc, h⟩ := Option.bind_eq_some_iff.mp h
      obtain ⟨r, hr, h⟩ := Option.bind_eq_some_iff.mp h
      refine ⟨cid, op, request, executed, c, r, hjob, ?_, hc, hr, (Option.some.inj h).symm⟩
      intro hdel
      simpa [hdel] using hd
  · simp at h

theorem store_answered {t : EntryState} {outcome : SendOutcome} {background : JobId}
    (h : w.answered tid outcome background = some t) :
    t.store = (completions (w.events (.answered tid outcome background))).foldl Store.apply w.store := by
  obtain ⟨cid, op, request, executed, c, r, hjob, -, hc, hr, rfl⟩ := answered_cases h
  have hsome : (w.coordinators cid).isSome := by rw [hc]; rfl
  have he := entry_sent hr
  have hst : r.store = w.store := congrArg (fun e => e.options.store) he.1
  rw [store_finishPin ((he.2 cid).trans hsome), hst]
  simp only [events, hjob]
  split_ifs <;> rfl

theorem store_acquired {t : EntryState} (h : w.acquired tid = some t) : t.store = w.store := by
  unfold acquired at h
  split at h
  · obtain ⟨c, -, h⟩ := Option.bind_eq_some_iff.mp h
    obtain ⟨lock, -, h⟩ := Option.bind_eq_some_iff.mp h
    exact Option.some.inj h ▸ rfl
  · obtain ⟨c, -, h⟩ := Option.bind_eq_some_iff.mp h
    obtain ⟨lock, -, h⟩ := Option.bind_eq_some_iff.mp h
    split_ifs at h <;> exact Option.some.inj h ▸ rfl
  · simp at h

theorem store_cancel {t : EntryState} (h : w.cancel tid = some t) : t.store = w.store := by
  unfold cancel at h
  split at h
  · exact Option.some.inj h ▸ rfl
  · exact Option.some.inj h ▸ rfl
  · simp at h

theorem store_unwind {t : EntryState} (h : w.unwind tid = some t) : t.store = w.store := by
  unfold unwind at h
  split at h
  all_goals first
    | exact Option.some.inj h ▸ rfl
    | simp at h

theorem store_step {t : EntryState} {turn : Turn} (h : w.step turn = some t) :
    t.store = (completions (w.events turn)).foldl Store.apply w.store := by
  cases turn with
  | build cid =>
    simp only [step] at h
    split_ifs at h
    exact Option.some.inj h ▸ rfl
  | publish cid =>
    simp only [step] at h
    split_ifs at h
    exact Option.some.inj h ▸ rfl
  | giveUp cid => exact Option.some.inj h ▸ rfl
  | unload => exact Option.some.inj h ▸ rfl
  | call tid cid op =>
    obtain ⟨c, -, h⟩ := Option.bind_eq_some_iff.mp h
    split_ifs at h
    exact Option.some.inj h ▸ congrArg (fun e => e.options.store) (entry_callPin c op)
  | refresh tid cid =>
    obtain ⟨c, -, h⟩ := Option.bind_eq_some_iff.mp h
    exact congrArg (fun e => e.options.store) (entry_scheduleCapabilityRefresh h).1
  | acquired tid => exact store_acquired h
  | executes tid =>
    simp only [step] at h
    split at h
    · rename_i cid op request executed hjob
      simp only [events, hjob]
      exact Option.some.inj h ▸ rfl
    · simp at h
  | answered tid outcome background => exact store_answered h
  | capabilitiesRead tid answer =>
    simp only [step] at h
    split at h
    · rw [← Option.some.inj h, store_finishRefresh]
      cases answer <;> rfl
    · simp at h
  | cancel tid => exact store_cancel h
  | unwind tid => exact store_unwind h
  | setSlotName cid slot name =>
    simp only [step] at h
    split_ifs at h with hc
    exact Option.some.inj h ▸ store_setSlotName hc slot name
  | settings reservedSlots =>
    simp only [step] at h
    split_ifs at h
    exact Option.some.inj h ▸ rfl

theorem completions_append (h k : List Event) :
    completions (h ++ k) = completions h ++ completions k := List.filterMap_append ..

theorem store_exec {t : EntryState} {turns : List Turn} (h : exec step w turns = some t) :
    t.store = (completions (history step events w turns)).foldl Store.apply w.store := by
  have hstep : ∀ (s : EntryState) (past : List Event) (turn : Turn) (r : EntryState),
      s.store = (completions past).foldl Store.apply w.store → True → s.step turn = some r →
      r.store = (completions (past ++ s.events turn)).foldl Store.apply w.store := by
    intro s past turn r hs _ hr
    rw [completions_append, List.foldl_append, ← hs]
    exact store_step hr
  have h' := exec_history (h := []) hstep rfl along_true h
  simpa only [List.nil_append] using h'

end EntryState

namespace Store

theorem slots_apply_congr {s t : Store} {slot : Int} (e : Effect)
    (h : s.slots slot = t.slots slot) : (s.apply e).slots slot = (t.apply e).slots slot := by
  by_cases he : e.slot? = some slot
  · cases e with
    | pin op =>
      obtain rfl := Option.some.inj he
      simp only [apply, Function.update_self, h]
    | name other name =>
      obtain rfl := Option.some.inj he
      simp only [apply, Function.update_self, h]
    | capabilities reported => exact h
    | settings reservedSlots => exact h
  · rw [slots_apply_of_ne he, slots_apply_of_ne he, h]

theorem rest_apply_congr {s t : Store} (e : Effect) (h : s.rest = t.rest) :
    (s.apply e).rest = (t.apply e).rest := by
  cases e <;> simp only [apply, h]

theorem slots_foldl (s : Store) (effects : List Effect) (slot : Int) :
    (effects.foldl apply s).slots slot =
      ((effects.filter (fun e => e.slot? = some slot)).foldl apply s).slots slot := by
  induction effects using List.reverseRecOn with
  | nil => rfl
  | append_singleton es e ih =>
    rw [List.foldl_append, List.filter_append, List.foldl_append]
    by_cases h : e.slot? = some slot
    · have hf : [e].filter (fun e => e.slot? = some slot) = [e] := by simp [h]
      rw [hf]
      exact slots_apply_congr e ih
    · have hf : [e].filter (fun e => e.slot? = some slot) = [] := by simp [h]
      rw [hf]
      exact (slots_apply_of_ne h).trans ih

theorem rest_foldl (s : Store) (effects : List Effect) :
    (effects.foldl apply s).rest =
      ((effects.filter (fun e => e.slot? = none)).foldl apply s).rest := by
  induction effects using List.reverseRecOn with
  | nil => rfl
  | append_singleton es e ih =>
    rw [List.foldl_append, List.filter_append, List.foldl_append]
    cases h : e.slot? with
    | none =>
      have hf : [e].filter (fun e => e.slot? = none) = [e] := by simp [h]
      rw [hf]
      exact rest_apply_congr e ih
    | some slot =>
      have hf : [e].filter (fun e => e.slot? = none) = [] := by simp [h]
      rw [hf]
      exact (rest_apply_of_slot h).trans ih

end Store

/-- Every run keeps every completed change, and nothing but those. -/
theorem slot_updates_kept {w t : EntryState} {turns : List Turn}
    (h : exec EntryState.step w turns = some t) :
    let effects := completions (history EntryState.step EntryState.events w turns)
    t.store = effects.foldl Store.apply w.store ∧
      (∀ slot, t.store.slots slot =
        ((effects.filter (fun e => e.slot? = some slot)).foldl Store.apply w.store).slots slot) ∧
      t.store.rest =
        ((effects.filter (fun e => e.slot? = none)).foldl Store.apply w.store).rest := by
  have hs := EntryState.store_exec h
  refine ⟨hs, fun slot => ?_, ?_⟩
  · rw [hs]
    exact Store.slots_foldl ..
  · rw [hs]
    exact Store.rest_foldl ..

/-- Kari has a code on slot 4, and two slots are reserved. -/
def keptOptions : Options where
  slots := some (Function.update (fun _ => none) "4" (some ⟨some "Kari", some true⟩))
  rest := Function.update (fun _ => none) confReservedSlots (some (.integer 2))

/-- A write that outlives a reload, next to a name, a settings and a capability write. -/
def reloadTurns : List Turn :=
  [.build 0, .publish 0, .call 1 0 (.setPin 5 "Ola" "56789"), .unload, .build 1, .publish 1,
    .call 2 1 (.clearPin 4), .executes 1, .setSlotName 1 4 "Kaja", .answered 1 .ofDelivered 3,
    .answered 2 .ofUnreached 4, .settings 1, .capabilitiesRead 3 (some fun _ => none)]

theorem slot_updates_kept_reload :
    ∃ t, exec EntryState.step (.fresh keptOptions) reloadTurns = some t ∧
      t.store.slots 5 = ⟨"Ola", true⟩ ∧ t.store.slots 4 = ⟨"Kaja", true⟩ := by
  have hrun : (exec EntryState.step (.fresh keptOptions) reloadTurns).isSome := by decide +kernel
  obtain ⟨t, ht⟩ := Option.isSome_iff_exists.mp hrun
  have h := slot_updates_kept ht
  refine ⟨t, ht, ?_, ?_⟩
  · rw [h.2.1 5]
    decide +kernel
  · rw [h.2.1 4]
    decide +kernel

end OnestiLock
