import OnestiLock.CoordinatorStore
import OnestiLock.ServiceRuns

/-! The record of a house: the changes that took place, lock by lock, and the task
each was made for. What is stored is the record replayed, and what a caller is
told is what the record holds for it. -/

namespace OnestiLock

open Transition

inductive HouseEvent
  | added (id : String) (options : Options)
  | took (id : String) (caller : Option JobId) (effect : Effect)

def HouseEvent.caller : HouseEvent → Option JobId
  | added .. => none
  | took _ caller _ => caller

/-- The task whose PIN operation a turn ends. -/
def Turn.caller : Turn → Option JobId
  | .answered tid .. => some tid
  | _ => none

/-- What an event means for the store of one entry. -/
def HouseEvent.replay (id : String) (stored : Option Store) : HouseEvent → Option Store
  | added other options => if other = id then some options.store else stored
  | took other _ effect => if other = id then stored.map (fun s => s.apply effect) else stored

namespace House

def events (u : Unicode) (h : House) : HouseTurn → List HouseEvent
  | .added id _ options => [.added id options]
  | .entry id turn =>
    (h.state id).elim [] (fun w => (completions (w.events turn)).map (.took id turn.caller))
  | .service tid call =>
    match h.handle u call with
    | .ok (c, .name slot name) => [.took c.entryId (some tid) (.name slot name)]
    | .ok (_, .write ..) | .error _ => []
  | .readdressed .. | .loaded _ | .unloading _ | .device .. | .dialog .. | .raises .. => []

variable {u : Unicode} {h t : House} {id : String} {tid : JobId} {op : PinOp} {w w' : EntryState}
  {turn : HouseTurn} {turns : List HouseTurn}

theorem events_arranges (quiet : turn.arranges = true) : h.events u turn = [] := by
  cases turn with
  | readdressed id ieee => rfl
  | loaded id => rfl
  | unloading id => rfl
  | device deviceId identifiers => rfl
  | added id ieee options => cases quiet
  | entry id turn => cases quiet
  | dialog tid id cid op => cases quiet
  | service tid call => cases quiet
  | raises tid typeName pieces => cases quiet

/-! What is stored. -/

def stores (h : House) (id : String) : Option Store := (h.state id).map EntryState.store

theorem replay_took (effects : List Effect) (caller : Option JobId) (other : String) (stored : Option Store) :
    (effects.map (HouseEvent.took id caller)).foldl (HouseEvent.replay other) stored =
      if id = other then stored.map (fun s => effects.foldl Store.apply s) else stored := by
  induction effects generalizing stored with
  | nil => simp
  | cons effect effects ih =>
    rw [List.map_cons, List.foldl_cons, ih]
    by_cases hid : id = other
    · simp [HouseEvent.replay, hid, Function.comp_def]
    · simp [HouseEvent.replay, hid]

/-- A turn of one entry that leaves no record leaves every store. -/
theorem stores_silent {turn : Turn} (hw : h.state id = some w) (hstep : w.step turn = some w')
    (hsilent : completions (w.events turn) = []) (hstate : t.state = Function.update h.state id (some w')) :
    t.stores = h.stores := by
  funext other
  unfold stores
  rw [hstate]
  by_cases hid : other = id
  · subst hid
    rw [Function.update_self, hw]
    have hstore := EntryState.store_step hstep
    rw [hsilent] at hstore
    exact congrArg some hstore
  · rw [Function.update_of_ne hid]

theorem stores_step (hs : h.Sound) (ht : h.step u turn = some t) (other : String) :
    t.stores other = (h.events u turn).foldl (HouseEvent.replay other) (h.stores other) := by
  cases step_move hs.listed ht with
  | arranges quiet leaves =>
    rw [events_arranges quiet]
    exact congrArg (Option.map EntryState.store) (congrFun leaves.state other)
  | @adds id ieee options absent state calls log order =>
    change (t.state other).map EntryState.store = if id = other then some options.store else h.stores other
    rw [state]
    by_cases hid : other = id
    · rw [hid, Function.update_self, if_pos rfl]
      rfl
    · rw [Function.update_of_ne hid, if_neg (Ne.symm hid)]
      rfl
  | @turns id turn w w' own before after leaves =>
    have hevents : h.events u (.entry id turn) = (completions (w.events turn)).map (.took id turn.caller) := by
      rw [events, before]
      rfl
    rw [hevents, replay_took]
    by_cases hid : id = other
    · subst hid
      rw [if_pos rfl, stores, leaves.state, Function.update_self, stores, before]
      exact congrArg some (EntryState.store_step after)
    · rw [if_neg hid, stores, leaves.state, Function.update_of_ne (Ne.symm hid)]
      rfl
  | dialogs free before after leaves => exact congrFun (stores_silent before after rfl leaves.state) other
  | refuses free handled leaves =>
    rw [events, handled]
    exact congrArg (Option.map EntryState.store) (congrFun leaves.state other)
  | @names tid call c slot name w w' free handled before after leaves =>
    rw [events, handled]
    change (t.state other).map EntryState.store =
      if c.entryId = other then (h.stores other).map (fun s => s.apply (.name slot name)) else h.stores other
    rw [leaves.state]
    by_cases hid : c.entryId = other
    · subst hid
      rw [if_pos rfl, Function.update_self, stores, before]
      exact congrArg some (EntryState.store_step after)
    · rw [if_neg hid, Function.update_of_ne (Ne.symm hid)]
      rfl
  | writes free handled before after started leaves =>
    rw [events, handled]
    exact congrFun (stores_silent before after rfl leaves.state) other
  | raises writing before after leaves => exact congrFun (stores_silent before after rfl leaves.state) other

/-! What the callers are told. -/

def marks (events : List HouseEvent) (tid : JobId) : Nat := (events.filter (fun x => x.caller = some tid)).length

theorem marks_append (events events' : List HouseEvent) (tid : JobId) :
    marks (events ++ events') tid = marks events tid + marks events' tid := by
  simp [marks]

theorem marks_took (effects : List Effect) (caller : Option JobId) :
    marks (effects.map (.took id caller)) tid = if caller = some tid then effects.length else 0 := by
  unfold marks
  by_cases hcaller : caller = some tid
  · rw [if_pos hcaller, List.filter_eq_self.mpr, List.length_map]
    intro x hx
    obtain ⟨effect, -, rfl⟩ := List.mem_map.mp hx
    exact decide_eq_true hcaller
  · rw [if_neg hcaller, List.filter_eq_nil_iff.mpr]
    · rfl
    · intro x hx
      obtain ⟨effect, -, rfl⟩ := List.mem_map.mp hx
      exact fun h => hcaller (of_decide_eq_true h)

/-- One mark for each call that has returned, none for any other. -/
def told (calls : JobId → Option CallState) (tid : JobId) : Nat :=
  if calls tid = some (.ended .returned) then 1 else 0

/-- A task of a service, or of nobody yet. -/
def Served (calls : JobId → Option CallState) (tid : JobId) : Prop := ∀ id op, calls tid ≠ some (.dialog id op)

/-- A turn that does not answer for a task neither ends nor begins what it is told. -/
theorem told_settle (hs : h.Sound) {turn : Turn} (hw : h.state id = some w) (hstep : w.step turn = some w')
    (hcaller : turn.caller ≠ some tid) : told (h.settle id w') tid = told h.calls tid := by
  refine if_congr (settle_ended.trans ⟨?_, Or.inl⟩) rfl rfl
  rintro (hcall | ⟨action, op, hcall, hend⟩)
  · exact hcall
  · obtain ⟨r, cid, stage, hr, hpins⟩ := hs.running hcall
    obtain rfl := Option.some.inj (hw.symm.trans hr)
    rcases EntryState.pins_step_on hstep hpins with ⟨stage', hafter⟩ | ⟨outcome, background, rfl, -⟩ | ⟨-, hjob⟩
    · rw [callEnd_of_pins hafter] at hend
      cases hend
    · exact absurd rfl hcaller
    · rw [hjob] at hend
      cases hend

/-- The answer to a task: it is told that it returned just if its change is on record. -/
theorem told_answered (hs : h.Sound) {outcome : SendOutcome} {background : JobId} (hw : h.state id = some w)
    (hstep : w.step (.answered tid outcome background) = some w') (hserved : Served h.calls tid) :
    told (h.settle id w') tid = told h.calls tid + (completions (w.events (.answered tid outcome background))).length := by
  obtain ⟨cid, op, request, executed, c, r, hjob, -, -, -, -⟩ := EntryState.answered_cases hstep
  have hends := EntryState.jobs_answered hstep
  rcases hs.traced hw (EntryState.pins_of_job hjob) with ⟨action, hcall⟩ | hdialog
  · have hbefore : told h.calls tid = 0 := if_neg (by rw [hcall]; simp)
    have hafter : h.settle id w' tid =
        some (.ended (if outcome.delivered then .returned else .raised (.notDelivered outcome))) :=
      settle_ended.mpr (Or.inr ⟨action, op, hcall, by rw [hends]; rfl⟩)
    rw [hbefore, told, hafter]
    simp only [EntryState.events, hjob]
    by_cases hd : outcome.delivered = true
    · simp [hd, completions]
    · simp [hd, completions]
  · exact absurd hdialog (hserved id op)

theorem told_update {calls : JobId → Option CallState} {a : JobId} {call : CallState} (hnot : call ≠ .ended .returned)
    (hbefore : calls a ≠ some (.ended .returned)) : told (Function.update calls a (some call)) tid = told calls tid := by
  unfold told
  by_cases ha : tid = a
  · subst ha
    rw [Function.update_self, if_neg hbefore, if_neg (fun he => hnot (Option.some.inj he))]
  · rw [Function.update_of_ne ha]

theorem served_settle : Served (h.settle id w') tid ↔ Served h.calls tid := by
  unfold Served
  simp only [ne_eq, settle_dialog]

theorem told_step (hs : h.Sound) (ht : h.step u turn = some t) (hserved : Served t.calls tid) :
    Served h.calls tid ∧ told t.calls tid = told h.calls tid + marks (h.events u turn) tid := by
  have hkept : ∀ {a call} {calls : JobId → Option CallState}, Served (Function.update calls a (some call)) tid →
      (tid = a → Served calls tid) → Served calls tid := by
    intro a call calls hserved hself
    by_cases ha : tid = a
    · exact hself ha
    · unfold Served at hserved
      rwa [Function.update_of_ne ha] at hserved
  have hfresh : ∀ {calls : JobId → Option CallState}, calls tid = none → Served calls tid := by
    intro calls hnone id op hcall
    rw [hnone] at hcall
    cases hcall
  cases step_move hs.listed ht with
  | arranges quiet leaves =>
    rw [events_arranges quiet, leaves.calls] at *
    exact ⟨hserved, rfl⟩
  | adds absent state calls log order =>
    rw [calls] at hserved ⊢
    exact ⟨hserved, rfl⟩
  | @turns id turn w w' own before after leaves =>
    rw [leaves.calls] at hserved ⊢
    have hevents : h.events u (.entry id turn) = (completions (w.events turn)).map (.took id turn.caller) := by
      rw [events, before]
      rfl
    rw [hevents, marks_took]
    refine ⟨served_settle.mp hserved, ?_⟩
    by_cases hcaller : turn.caller = some tid
    · rw [if_pos hcaller]
      cases turn with
      | answered a outcome background =>
        obtain rfl := Option.some.inj hcaller
        exact told_answered hs before after (served_settle.mp hserved)
      | _ => cases hcaller
    · rw [if_neg hcaller]
      exact told_settle hs before after hcaller
  | @dialogs a id cid op w w' free before after leaves =>
    rw [leaves.calls] at hserved ⊢
    have hfree : h.settle id w' a = none := by
      rw [settle, free]
    have hsettled : Served (h.settle id w') tid := hkept hserved (fun ha => hfresh (ha ▸ hfree))
    refine ⟨served_settle.mp hsettled, ?_⟩
    rw [told_update (by simp) (by rw [hfree]; simp)]
    exact told_settle hs before after (by simp [Turn.caller])
  | @refuses a call error free handled leaves =>
    rw [leaves.calls] at hserved ⊢
    refine ⟨hkept hserved (fun ha => hfresh (ha ▸ free)), ?_⟩
    rw [told_update (by simp) (by rw [free]; simp), events, handled]
    rfl
  | @names a call c slot name w w' free handled before after leaves =>
    rw [leaves.calls] at hserved ⊢
    have hfree : h.settle c.entryId w' a = none := by
      rw [settle, free]
    refine ⟨served_settle.mp (hkept hserved (fun ha => hfresh (ha ▸ hfree))), ?_⟩
    rw [events, handled]
    by_cases ha : tid = a
    · subst ha
      simp [told, marks, HouseEvent.caller, free]
    · have hmarks : marks [HouseEvent.took c.entryId (some a) (.name slot name)] tid = 0 := by
        simp [marks, HouseEvent.caller, Ne.symm ha]
      dsimp only
      rw [hmarks, told, Function.update_of_ne ha]
      exact told_settle hs before after (by simp [Turn.caller])
  | @writes a call c action op w w' free handled before after started leaves =>
    rw [leaves.calls] at hserved ⊢
    have hfree : h.settle c.entryId w' a = none := by
      rw [settle, free]
    refine ⟨served_settle.mp (hkept hserved (fun ha => hfresh (ha ▸ hfree))), ?_⟩
    rw [told_update (by simp) (by rw [hfree]; simp), events, handled]
    exact told_settle hs before after (by simp [Turn.caller])
  | @raises a typeName pieces id action op w w' writing before after leaves =>
    rw [leaves.calls] at hserved ⊢
    have hcancelled : h.settle id w' a = some (.ended .cancelled) :=
      settle_ended.mpr (Or.inr ⟨action, op, writing, by rw [EntryState.jobs_unwind after]; rfl⟩)
    refine ⟨served_settle.mp (hkept hserved (fun ha => ?_)), ?_⟩
    · intro id op hdialog
      rw [ha, hcancelled] at hdialog
      cases hdialog
    · rw [told_update (by simp) (by rw [hcancelled]; simp)]
      exact told_settle hs before after (by simp [Turn.caller])

/-- What a run has on record for a task. -/
structure Kept (u : Unicode) (h : House) (past : List HouseEvent) : Prop where
  sound : h.Sound
  stored : ∀ id, h.stores id = past.foldl (HouseEvent.replay id) none
  told : ∀ tid, Served h.calls tid → marks past tid = told h.calls tid

theorem kept_exec (hrun : exec (House.step u) start turns = some h) :
    Kept u h (history (House.step u) (events u) start turns) := by
  have hstep : ∀ (s : House) (past : List HouseEvent) (l : HouseTurn) (r : House), Kept u s past → True →
      s.step u l = some r → Kept u r (past ++ s.events u l) := by
    intro s past l r hs _ hr
    refine ⟨hs.sound.step hr, fun id => ?_, fun tid hserved => ?_⟩
    · rw [List.foldl_append, ← hs.stored]
      exact stores_step hs.sound hr id
    · obtain ⟨hbefore, htold⟩ := told_step hs.sound hr hserved
      rw [marks_append, hs.told tid hbefore, htold]
  exact exec_history (h := []) hstep ⟨sound_start, fun _ => rfl, fun _ _ => rfl⟩ along_true hrun

theorem completions_answered {outcome : SendOutcome} {background : JobId} {effect : Effect}
    (h : effect ∈ completions (w.events (.answered tid outcome background))) :
    ∃ cid op request executed, w.jobs tid = .pin cid op (.sending request executed) ∧ effect = .pin op := by
  simp only [EntryState.events] at h
  split at h
  · rename_i cid op request executed hjob
    split_ifs at h
    · exact ⟨cid, op, request, executed, hjob, by simpa [completions] using h⟩
    · cases h
  · cases h

theorem Asked.later {effect : Effect} (h : Asked u turns tid id effect) (more : List HouseTurn) :
    Asked u (turns ++ more) tid id effect := by
  obtain ⟨before, call, after, r, rfl, hrun, hgrants⟩ := h
  exact ⟨before, call, after ++ more, r, by simp, hrun, hgrants⟩

theorem AskedInDialog.later (h : AskedInDialog turns tid id op) (more : List HouseTurn) :
    AskedInDialog (turns ++ more) tid id op := by
  obtain ⟨before, cid, after, rfl⟩ := h
  exact ⟨before, cid, after ++ more, by simp⟩

/-- A change on record for a task was asked for, of the lock it was made on. -/
theorem took_asked {effect : Effect}
    (hmem : .took id (some tid) effect ∈ history (House.step u) (events u) start turns) :
    Asked u turns tid id effect ∨ ∃ op, effect = .pin op ∧ AskedInDialog turns tid id op := by
  obtain ⟨before, turn, after, r, rfl, hbefore, hevent⟩ := mem_history hmem
  have hs := sound_exec hbefore
  cases turn with
  | entry other turn =>
    unfold events at hevent
    dsimp only at hevent
    cases hw : r.state other with
    | none =>
      rw [hw] at hevent
      cases hevent
    | some w =>
      rw [hw] at hevent
      obtain ⟨effect', heffect, htook⟩ := List.mem_map.mp hevent
      cases turn with
      | answered a outcome background =>
        cases htook
        obtain ⟨cid, op, request, executed, hjob, rfl⟩ := completions_answered heffect
        -- The operation was running when its answer came, so it had been asked for.
        rcases pins_asked hbefore hw (EntryState.pins_of_job hjob) with hasked | hasked
        · exact Or.inl (hasked.later _)
        · exact Or.inr ⟨op, rfl, hasked.later _⟩
      | _ => cases htook
  | service a call =>
    unfold events at hevent
    dsimp only at hevent
    split at hevent
    · rename_i c slot name handled
      cases List.mem_singleton.mp hevent
      obtain ⟨hcoordinator, hrequest, hslot⟩ := handle_name handled
      obtain ⟨htarget, hdesignates⟩ := getCoordinator_ok hs.listed hcoordinator
      exact Or.inl ⟨before, call, after, r, rfl, hbefore, hrequest, hdesignates, by rw [htarget]; rfl, hslot⟩
    · cases hevent
    · cases hevent
  | added other ieee options => cases List.mem_singleton.mp hevent
  | _ => cases hevent

/-- The store of every lock is the record replayed; a service call has returned just if
the record holds one change for it, and holds none for it otherwise; and that change was
asked for by the call, of the lock it designates. -/
theorem exec_records (hrun : exec (House.step u) start turns = some h) :
    let past := history (House.step u) (events u) start turns
    (∀ id, h.stores id = past.foldl (HouseEvent.replay id) none) ∧
      (∀ tid, Served h.calls tid → marks past tid = if h.calls tid = some (.ended .returned) then 1 else 0) ∧
      ∀ id tid effect, .took id (some tid) effect ∈ past →
        Asked u turns tid id effect ∨ ∃ op, effect = .pin op ∧ AskedInDialog turns tid id op := by
  have hkept := kept_exec hrun
  exact ⟨hkept.stored, hkept.told, fun _ _ _ hmem => took_asked hmem⟩

theorem exec_records_frontDoor :
    ∃ h, exec (House.step asciiTables) start
        (frontDoorTurns ++ [.entry "front" (.executes 7), .entry "front" (.answered 7 .ofDelivered 8)]) = some h ∧
      (h.stores "front").map (fun s => s.slots 5) = some ⟨"Ola", true⟩ ∧
      (h.stores "back").map (fun s => s.slots 5) = some defaultSlot := by
  have hrun : (exec (House.step asciiTables) start (frontDoorTurns ++
      [.entry "front" (.executes 7), .entry "front" (.answered 7 .ofDelivered 8)])).isSome := by decide +kernel
  obtain ⟨h, hh⟩ := Option.isSome_iff_exists.mp hrun
  have hrecords := (exec_records hh).1
  refine ⟨h, hh, ?_, ?_⟩
  · rw [hrecords "front"]
    decide +kernel
  · rw [hrecords "back"]
    decide +kernel

end House

end OnestiLock
