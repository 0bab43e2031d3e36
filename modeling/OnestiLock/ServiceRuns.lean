import OnestiLock.ServiceCalls

/-! Runs of a house: no lock gets a command that was not asked of it, and a
caller is told of success exactly when its change took place. -/

namespace OnestiLock

open Transition

namespace House

variable {u : Unicode} {h t : House} {id : String} {tid : JobId} {op : PinOp} {w w' : EntryState}

/-! Settling. -/

theorem settle_writing {entryId action : String} :
    h.settle id w tid = some (.writing entryId action op) ↔
      h.calls tid = some (.writing entryId action op) ∧ (entryId = id → callEnd (w.jobs tid) = none) := by
  unfold settle
  split
  · rename_i entryId' action' op' hcall
    by_cases hid : entryId' = id
    · cases hend : callEnd (w.jobs tid) with
      | none => simp [hcall, hid]
      | some how =>
        refine iff_of_false (by simp [hid]) ?_
        rintro ⟨hsame, hopen⟩
        cases hcall.symm.trans hsame
        cases hopen hid
    · simp only [hid, if_false, hcall, Option.some.injEq, CallState.writing.injEq]
      constructor
      · rintro ⟨rfl, rfl, rfl⟩
        exact ⟨⟨rfl, rfl, rfl⟩, fun h => absurd h hid⟩
      · exact fun h => h.1
  · rename_i hother
    constructor
    · exact fun hcall => absurd hcall (hother _ _ _)
    · exact fun hcall => hcall.1

theorem settle_dialog {entryId : String} :
    h.settle id w tid = some (.dialog entryId op) ↔ h.calls tid = some (.dialog entryId op) := by
  unfold settle
  split
  · rename_i entryId' action' op' hcall
    rw [hcall]
    by_cases hid : entryId' = id
    · cases hend : callEnd (w.jobs tid) with
      | none => simp [hid]
      | some how => simp [hid]
    · simp [hid]
  · rfl

theorem settle_ended {how : CallEnd} :
    h.settle id w tid = some (.ended how) ↔ h.calls tid = some (.ended how) ∨
      ∃ action op, h.calls tid = some (.writing id action op) ∧ callEnd (w.jobs tid) = some how := by
  unfold settle
  split
  · rename_i entryId' action' op' hcall
    rw [hcall]
    by_cases hid : entryId' = id
    · cases hend : callEnd (w.jobs tid) with
      | none => simp [hid]
      | some how => simp [hid]
    · simp [hid]
  · rename_i hother
    constructor
    · exact Or.inl
    · rintro (hcall | ⟨action, op, hcall, -⟩)
      · exact hcall
      · exact absurd hcall (hother _ _ _)

/-! The books: which PIN operation is whose. -/

def Traced (state : String → Option EntryState) (calls : JobId → Option CallState) : Prop :=
  ∀ {id w tid cid op stage}, state id = some w → w.pins tid = some (cid, op, stage) →
    (∃ action, calls tid = some (.writing id action op)) ∨ calls tid = some (.dialog id op)

def Running (state : String → Option EntryState) (calls : JobId → Option CallState) : Prop :=
  ∀ {tid id action op}, calls tid = some (.writing id action op) →
    ∃ w cid stage, state id = some w ∧ w.pins tid = some (cid, op, stage)

structure Sound (h : House) : Prop where
  listed : h.Listed
  traced : Traced h.state h.calls
  running : Running h.state h.calls

theorem sound_start : Sound start where
  listed id hid := by cases hid
  traced hw := by cases hw
  running hcall := by cases hcall

theorem listed_of_state (hl : h.Listed) (horder : h.order ⊆ t.order)
    (hstate : ∀ id, (t.state id).isSome → (h.state id).isSome ∨ id ∈ t.order) : t.Listed := by
  intro id hid
  have hsome : ∀ {r : House}, (r.state id).isSome = (r.entries id).isSome := fun {r} => Option.isSome_map
  rcases hstate id (by rw [hsome]; exact hid) with hbefore | hmem
  · exact horder (hl id (by rwa [hsome] at hbefore))
  · exact hmem

theorem Leaves.listed {calls : JobId → Option CallState} {log : List Python.Text} (hl : h.Listed)
    (hbefore : h.state id = some w)
    (leaves : h.Leaves t (Function.update h.state id (some w')) calls log) : t.Listed := by
  apply listed_of_state hl (fun _ hmem => leaves.order ▸ hmem)
  intro other hother
  left
  rw [leaves.state] at hother
  by_cases hid : other = id
  · rw [hid, hbefore]
    rfl
  · rwa [Function.update_of_ne hid] at hother

/-- A turn of one entry keeps the books of every task it does not call for. -/
theorem Sound.settled_traced (hs : h.Sound) {turn : Turn} (hw : h.state id = some w)
    (hstep : w.step turn = some w') {other : String} {r : EntryState} {cid : CoordinatorId} {stage : PinStage}
    (hr : Function.update h.state id (some w') other = some r) (hpins : r.pins tid = some (cid, op, stage)) :
    ((∃ action, h.settle id w' tid = some (.writing other action op)) ∨
      h.settle id w' tid = some (.dialog other op)) ∨ (other = id ∧ turn = .call tid cid op) := by
  by_cases hid : other = id
  · subst hid
    rw [Function.update_self] at hr
    obtain rfl := Option.some.inj hr
    rcases EntryState.pins_step_back hstep hpins with ⟨stage', hbefore⟩ | hcall
    · left
      rcases hs.traced hw hbefore with ⟨action, hwriting⟩ | hdialog
      · exact Or.inl ⟨action, settle_writing.mpr ⟨hwriting, fun _ => callEnd_of_pins hpins⟩⟩
      · exact Or.inr (settle_dialog.mpr hdialog)
    · exact Or.inr ⟨rfl, hcall⟩
  · left
    rw [Function.update_of_ne hid] at hr
    rcases hs.traced hr hpins with ⟨action, hwriting⟩ | hdialog
    · exact Or.inl ⟨action, settle_writing.mpr ⟨hwriting, fun he => absurd he hid⟩⟩
    · exact Or.inr (settle_dialog.mpr hdialog)

theorem Sound.settled_running (hs : h.Sound) {turn : Turn} (hw : h.state id = some w)
    (hstep : w.step turn = some w') : Running (Function.update h.state id (some w')) (h.settle id w') := by
  intro tid other action op hcall
  obtain ⟨hwriting, hopen⟩ := settle_writing.mp hcall
  obtain ⟨r, cid, stage, hr, hpins⟩ := hs.running hwriting
  by_cases hid : other = id
  · subst hid
    obtain rfl := Option.some.inj (hw.symm.trans hr)
    rcases EntryState.pins_step_on hstep hpins with ⟨stage', hafter⟩ | ⟨outcome, background, -, hjob⟩ | ⟨-, hjob⟩
    · exact ⟨w', cid, stage', Function.update_self .., hafter⟩
    · have hend := hopen rfl
      rw [hjob] at hend
      cases hend
    · have hend := hopen rfl
      rw [hjob] at hend
      cases hend
  · exact ⟨r, cid, stage, by rw [Function.update_of_ne hid]; exact hr, hpins⟩

/-- The books after a call on one entry, by a task nobody has used. -/
theorem Sound.called (hs : h.Sound) {cid : CoordinatorId} {call : CallState} (hfree : h.calls tid = none)
    (hw : h.state id = some w) (hstep : w.step (.call tid cid op) = some w')
    (hcall : (∃ action, call = .writing id action op) ∧ (∃ stage, w'.pins tid = some (cid, op, stage)) ∨
      call = .dialog id op) :
    Traced (Function.update h.state id (some w')) (Function.update (h.settle id w') tid (some call)) ∧
      Running (Function.update h.state id (some w')) (Function.update (h.settle id w') tid (some call)) := by
  constructor
  · intro other r a c o stage hr hpins
    have hcases := hs.settled_traced hw hstep hr hpins
    by_cases ha : a = tid
    · subst ha
      rw [Function.update_self]
      -- The task is new, so what it runs is this call.
      have hnew : other = id ∧ c = cid ∧ o = op := by
        rcases hcases with (⟨action, hsettled⟩ | hsettled) | ⟨hid, hturn⟩
        · rw [(settle_writing.mp hsettled).1] at hfree
          cases hfree
        · rw [settle_dialog.mp hsettled] at hfree
          cases hfree
        · cases hturn
          exact ⟨hid, rfl, rfl⟩
      obtain ⟨rfl, rfl, rfl⟩ := hnew
      rcases hcall with ⟨⟨action, rfl⟩, -⟩ | rfl
      · exact Or.inl ⟨action, rfl⟩
      · exact Or.inr rfl
    · rw [Function.update_of_ne ha]
      rcases hcases with hold | ⟨-, hturn⟩
      · exact hold
      · cases hturn
        exact absurd rfl ha
  · intro a other action o hwriting
    by_cases ha : a = tid
    · subst ha
      rw [Function.update_self] at hwriting
      rcases hcall with ⟨⟨action', rfl⟩, stage, hpins⟩ | rfl
      · cases hwriting
        exact ⟨w', cid, stage, Function.update_self .., hpins⟩
      · cases hwriting
    · rw [Function.update_of_ne ha] at hwriting
      exact hs.settled_running hw hstep hwriting

/-- A turn of one entry that calls for nothing keeps the books. -/
theorem Sound.settled (hs : h.Sound) {turn : Turn} (own : turn.isCall = false) (hw : h.state id = some w)
    (hstep : w.step turn = some w') :
    Traced (Function.update h.state id (some w')) (h.settle id w') ∧
      Running (Function.update h.state id (some w')) (h.settle id w') := by
  refine ⟨?_, hs.settled_running hw hstep⟩
  intro other r tid cid op stage hr hpins
  rcases hs.settled_traced hw hstep hr hpins with hbooked | ⟨-, rfl⟩
  · exact hbooked
  · cases own

/-- The books once a task that runs nothing any more has ended. -/
theorem ended_books {state : String → Option EntryState} {calls : JobId → Option CallState} (how : CallEnd)
    (htraced : Traced state calls) (hrunning : Running state calls)
    (hgone : ∀ id op, (∀ action, calls tid ≠ some (.writing id action op)) ∧ calls tid ≠ some (.dialog id op)) :
    Traced state (Function.update calls tid (some (.ended how))) ∧
      Running state (Function.update calls tid (some (.ended how))) := by
  constructor
  · intro id w a cid op stage hw hpins
    have hbooked := htraced hw hpins
    have hne : a ≠ tid := by
      rintro rfl
      rcases hbooked with ⟨action, hcall⟩ | hcall
      · exact (hgone id op).1 action hcall
      · exact (hgone id op).2 hcall
    rw [Function.update_of_ne hne]
    exact hbooked
  · intro a id action op hwriting
    by_cases ha : a = tid
    · rw [ha, Function.update_self] at hwriting
      cases hwriting
    · rw [Function.update_of_ne ha] at hwriting
      exact hrunning hwriting

/-! What each kind of turn does to the books. -/

theorem Leaves.listed_of_same {calls : JobId → Option CallState} {log : List Python.Text} (hl : h.Listed)
    (leaves : h.Leaves t h.state calls log) : t.Listed := by
  apply listed_of_state hl (fun _ hmem => leaves.order ▸ hmem)
  intro id hid
  rw [leaves.state] at hid
  exact Or.inl hid

theorem Sound.arranged (hs : h.Sound) {log : List Python.Text} (leaves : h.Leaves t h.state h.calls log) :
    t.Sound where
  listed := leaves.listed_of_same hs.listed
  traced := by
    rw [leaves.state, leaves.calls]
    exact hs.traced
  running := by
    rw [leaves.state, leaves.calls]
    exact hs.running

theorem Sound.added (hs : h.Sound) {options : Options} (absent : h.state id = none)
    (state : t.state = Function.update h.state id (some (.fresh options))) (calls : t.calls = h.calls)
    (order : t.order = h.order ++ [id]) : t.Sound where
  listed := by
    apply listed_of_state hs.listed (fun _ hmem => by rw [order]; exact List.mem_append_left _ hmem)
    intro other hsome
    by_cases hid : other = id
    · exact Or.inr (by rw [order, hid]; exact List.mem_append_right _ (List.mem_singleton_self _))
    · rw [state, Function.update_of_ne hid] at hsome
      exact Or.inl hsome
  traced := by
    intro other r tid cid op stage hr hpins
    rw [state] at hr
    rw [calls]
    by_cases hid : other = id
    · rw [hid, Function.update_self] at hr
      rw [← Option.some.inj hr] at hpins
      cases hpins
    · rw [Function.update_of_ne hid] at hr
      exact hs.traced hr hpins
  running := by
    intro tid other action op hwriting
    rw [calls] at hwriting
    obtain ⟨r, cid, stage, hr, hpins⟩ := hs.running hwriting
    have hid : other ≠ id := by
      rintro rfl
      rw [absent] at hr
      cases hr
    exact ⟨r, cid, stage, by rw [state, Function.update_of_ne hid]; exact hr, hpins⟩

theorem Sound.turned (hs : h.Sound) {turn : Turn} {log : List Python.Text} (own : turn.isCall = false)
    (before : h.state id = some w) (after : w.step turn = some w')
    (leaves : h.Leaves t (Function.update h.state id (some w')) (h.settle id w') log) : t.Sound := by
  obtain ⟨htraced, hrunning⟩ := hs.settled own before after
  exact ⟨leaves.listed hs.listed before, leaves.state ▸ leaves.calls ▸ htraced, leaves.state ▸ leaves.calls ▸ hrunning⟩

theorem Sound.refused (hs : h.Sound) {how : CallEnd} {log : List Python.Text} (free : h.calls tid = none)
    (leaves : h.Leaves t h.state (Function.update h.calls tid (some (.ended how))) log) : t.Sound := by
  have hgone : ∀ id op, (∀ action, h.calls tid ≠ some (.writing id action op)) ∧
      h.calls tid ≠ some (.dialog id op) := by
    simp [free]
  obtain ⟨htraced, hrunning⟩ := ended_books how hs.traced hs.running hgone
  exact ⟨leaves.listed_of_same hs.listed, leaves.state ▸ leaves.calls ▸ htraced,
    leaves.state ▸ leaves.calls ▸ hrunning⟩

theorem Sound.begun (hs : h.Sound) {cid : CoordinatorId} {call : CallState} {log : List Python.Text}
    (free : h.calls tid = none) (before : h.state id = some w) (after : w.step (.call tid cid op) = some w')
    (hcall : (∃ action, call = .writing id action op) ∧ (∃ stage, w'.pins tid = some (cid, op, stage)) ∨
      call = .dialog id op)
    (leaves : h.Leaves t (Function.update h.state id (some w')) (Function.update (h.settle id w') tid (some call)) log) :
    t.Sound := by
  obtain ⟨htraced, hrunning⟩ := hs.called free before after hcall
  exact ⟨leaves.listed hs.listed before, leaves.state ▸ leaves.calls ▸ htraced, leaves.state ▸ leaves.calls ▸ hrunning⟩

/-- A task that the books no longer name ends on a turn of one entry. -/
theorem Sound.ended (hs : h.Sound) {turn : Turn} {how : CallEnd} {log : List Python.Text} (own : turn.isCall = false)
    (before : h.state id = some w) (after : w.step turn = some w')
    (hgone : ∀ other op, (∀ action, h.settle id w' tid ≠ some (.writing other action op)) ∧
      h.settle id w' tid ≠ some (.dialog other op))
    (leaves : h.Leaves t (Function.update h.state id (some w'))
      (Function.update (h.settle id w') tid (some (.ended how))) log) : t.Sound := by
  obtain ⟨htraced, hrunning⟩ := hs.settled own before after
  obtain ⟨htraced', hrunning'⟩ := ended_books how htraced hrunning hgone
  exact ⟨leaves.listed hs.listed before, leaves.state ▸ leaves.calls ▸ htraced',
    leaves.state ▸ leaves.calls ▸ hrunning'⟩

theorem settle_free {w' : EntryState} (free : h.calls tid = none) (other : String) (op : PinOp) :
    (∀ action, h.settle id w' tid ≠ some (.writing other action op)) ∧ h.settle id w' tid ≠ some (.dialog other op) := by
  constructor
  · intro action hcall
    rw [(settle_writing.mp hcall).1] at free
    cases free
  · intro hcall
    rw [settle_dialog.mp hcall] at free
    cases free

/-- A write that has left its coordinator was on no other entry. -/
theorem settle_unwound {action : String} {op : PinOp} (writing : h.calls tid = some (.writing id action op))
    (after : w.step (.unwind tid) = some w') (other : String) (o : PinOp) :
    (∀ action, h.settle id w' tid ≠ some (.writing other action o)) ∧ h.settle id w' tid ≠ some (.dialog other o) := by
  have hcancelled := EntryState.jobs_unwind after
  constructor
  · intro action' hcall
    obtain ⟨hwriting, hopen⟩ := settle_writing.mp hcall
    rw [writing] at hwriting
    cases hwriting
    have hend := hopen rfl
    rw [hcancelled] at hend
    cases hend
  · intro hcall
    rw [settle_dialog.mp hcall] at writing
    cases writing

theorem Sound.step (hs : h.Sound) {turn : HouseTurn} (ht : h.step u turn = some t) : t.Sound := by
  cases step_move hs.listed ht with
  | arranges quiet leaves => exact hs.arranged leaves
  | adds absent state calls log order => exact hs.added absent state calls order
  | turns own before after leaves => exact hs.turned own before after leaves
  | dialogs free before after leaves => exact hs.begun free before after (Or.inr rfl) leaves
  | refuses free handled leaves => exact hs.refused free leaves
  | names free handled before after leaves => exact hs.ended rfl before after (settle_free free) leaves
  | writes free handled before after started leaves =>
    exact hs.begun free before after (Or.inl ⟨⟨_, rfl⟩, started⟩) leaves
  | raises writing before after leaves => exact hs.ended rfl before after (settle_unwound writing after) leaves

theorem sound_exec {turns : List HouseTurn} (hrun : exec (House.step u) start turns = some h) : h.Sound :=
  exec_invariant (fun _ _ _ hs ht => hs.step ht) sound_start hrun

/-! Where a command comes from. -/

/-- A call asks for a change of the lock it designates, and the checks let it through. -/
def Grants (u : Unicode) (h : House) (call : ServiceCall) (id : String) : Effect → Prop
  | .pin op => call.request.op? = some op ∧ h.Designates u call id ∧ ∃ c, h.target id = some c ∧ c.Takes u op
  | .name slot name => call.request = .setName slot name ∧ h.Designates u call id ∧ (h.target id).isSome ∧
      0 ≤ slot ∧ slot < maxSlots
  | .capabilities _ | .settings _ => False

/-- The task was started by a service call for this change. -/
def Asked (u : Unicode) (turns : List HouseTurn) (tid : JobId) (id : String) (effect : Effect) : Prop :=
  ∃ before call after h, turns = before ++ .service tid call :: after ∧
    exec (House.step u) start before = some h ∧ h.Grants u call id effect

def AskedInDialog (turns : List HouseTurn) (tid : JobId) (id : String) (op : PinOp) : Prop :=
  ∃ before cid after, turns = before ++ .dialog tid id cid op :: after

theorem writing_step (hs : h.Sound) {turn : HouseTurn} (ht : h.step u turn = some t) {action : String}
    (hcall : t.calls tid = some (.writing id action op)) :
    h.calls tid = some (.writing id action op) ∨
      ∃ call, turn = .service tid call ∧ h.Grants u call id (.pin op) := by
  have hother : ∀ {a other call w'}, Function.update (h.settle other w') a (some call) tid =
      some (.writing id action op) → (tid = a → call ≠ .writing id action op) →
      h.calls tid = some (.writing id action op) := by
    intro a other call w' hupdate hne
    by_cases ha : tid = a
    · rw [ha, Function.update_self] at hupdate
      exact absurd (Option.some.inj hupdate) (hne ha)
    · rw [Function.update_of_ne ha] at hupdate
      exact (settle_writing.mp hupdate).1
  cases step_move hs.listed ht with
  | arranges quiet leaves => exact Or.inl (leaves.calls ▸ hcall)
  | adds absent state calls log order => exact Or.inl (calls ▸ hcall)
  | turns own before after leaves =>
    rw [leaves.calls] at hcall
    exact Or.inl (settle_writing.mp hcall).1
  | dialogs free before after leaves =>
    rw [leaves.calls] at hcall
    exact Or.inl (hother hcall (fun _ he => by cases he))
  | @refuses a call error free handled leaves =>
    rw [leaves.calls] at hcall
    by_cases ha : tid = a
    · rw [ha, Function.update_self] at hcall
      cases hcall
    · rw [Function.update_of_ne ha] at hcall
      exact Or.inl hcall
  | names free handled before after leaves =>
    rw [leaves.calls] at hcall
    exact Or.inl (hother hcall (fun _ he => by cases he))
  | @writes a call c action' op' w w' free handled before after started leaves =>
    rw [leaves.calls] at hcall
    by_cases ha : tid = a
    · subst ha
      rw [Function.update_self] at hcall
      cases hcall
      obtain ⟨hcoordinator, hrequest, htakes⟩ := handle_write handled
      obtain ⟨htarget, hdesignates⟩ := getCoordinator_ok hs.listed hcoordinator
      exact Or.inr ⟨call, rfl, hrequest, hdesignates, c, htarget, htakes⟩
    · exact Or.inl (hother hcall (fun he => absurd he ha))
  | raises writing before after leaves =>
    rw [leaves.calls] at hcall
    exact Or.inl (hother hcall (fun _ he => by cases he))

theorem dialog_step (hs : h.Sound) {turn : HouseTurn} (ht : h.step u turn = some t)
    (hcall : t.calls tid = some (.dialog id op)) :
    h.calls tid = some (.dialog id op) ∨ ∃ cid, turn = .dialog tid id cid op := by
  have hother : ∀ {a other call w'}, Function.update (h.settle other w') a (some call) tid =
      some (.dialog id op) → (tid = a → call ≠ .dialog id op) → h.calls tid = some (.dialog id op) := by
    intro a other call w' hupdate hne
    by_cases ha : tid = a
    · rw [ha, Function.update_self] at hupdate
      exact absurd (Option.some.inj hupdate) (hne ha)
    · rw [Function.update_of_ne ha] at hupdate
      exact settle_dialog.mp hupdate
  cases step_move hs.listed ht with
  | arranges quiet leaves => exact Or.inl (leaves.calls ▸ hcall)
  | adds absent state calls log order => exact Or.inl (calls ▸ hcall)
  | turns own before after leaves =>
    rw [leaves.calls] at hcall
    exact Or.inl (settle_dialog.mp hcall)
  | @dialogs a other cid op' w w' free before after leaves =>
    rw [leaves.calls] at hcall
    by_cases ha : tid = a
    · subst ha
      rw [Function.update_self] at hcall
      cases hcall
      exact Or.inr ⟨cid, rfl⟩
    · exact Or.inl (hother hcall (fun he => absurd he ha))
  | @refuses a call error free handled leaves =>
    rw [leaves.calls] at hcall
    by_cases ha : tid = a
    · rw [ha, Function.update_self] at hcall
      cases hcall
    · rw [Function.update_of_ne ha] at hcall
      exact Or.inl hcall
  | names free handled before after leaves =>
    rw [leaves.calls] at hcall
    exact Or.inl (hother hcall (fun _ he => by cases he))
  | writes free handled before after started leaves =>
    rw [leaves.calls] at hcall
    exact Or.inl (hother hcall (fun _ he => by cases he))
  | raises writing before after leaves =>
    rw [leaves.calls] at hcall
    exact Or.inl (hother hcall (fun _ he => by cases he))

variable {turns : List HouseTurn}

/-- A PIN operation of a run was asked for, by a service call or in a dialog. -/
theorem pins_asked (hrun : exec (House.step u) start turns = some h) (hw : h.state id = some w)
    {cid : CoordinatorId} {stage : PinStage} (hpins : w.pins tid = some (cid, op, stage)) :
    Asked u turns tid id (.pin op) ∨ AskedInDialog turns tid id op := by
  rcases (sound_exec hrun).traced hw hpins with ⟨action, hwriting⟩ | hdialog
  · left
    have hnot : ¬ start.calls tid = some (.writing id action op) := fun hc => by cases hc
    obtain ⟨before, turn, after, r, hturns, hbefore, call, rfl, hgrants⟩ :=
      exec_cause (I := Sound) (fun _ _ _ hs ht => hs.step ht) (fun _ _ _ hs ht hq => writing_step hs ht hq)
        sound_start hnot hrun hwriting
    exact ⟨before, call, after, r, hturns, hbefore, hgrants⟩
  · right
    have hnot : ¬ start.calls tid = some (.dialog id op) := fun hc => by cases hc
    obtain ⟨before, turn, after, r, hturns, -, called, rfl⟩ :=
      exec_cause (I := Sound) (fun _ _ _ hs ht => hs.step ht) (fun _ _ _ hs ht hq => dialog_step hs ht hq)
        sound_start hnot hrun hdialog
    exact ⟨before, called, after, hturns⟩

/-- The command on the air to a lock was asked of that lock, which took it, and the
task that asked has none on the air to another. -/
theorem exec_commands (hrun : exec (House.step u) start turns = some h) {e : HouseEntry}
    (he : h.entries id = some e) (hop : e.state.inFlight tid = some op) :
    (Asked u turns tid id (.pin op) ∨ AskedInDialog turns tid id op) ∧
      ∀ other e', h.entries other = some e' → (e'.state.inFlight tid).isSome → other = id := by
  have hstate : ∀ {other e'}, h.entries other = some e' → h.state other = some e'.state := by
    intro other e' he'
    rw [state, he']
    rfl
  obtain ⟨cid, request, executed, hpins⟩ := inFlight_eq_some.mp hop
  refine ⟨pins_asked hrun (hstate he) hpins, fun other e' he' hsome => ?_⟩
  obtain ⟨op', hop'⟩ := Option.isSome_iff_exists.mp hsome
  obtain ⟨cid', request', executed', hpins'⟩ := inFlight_eq_some.mp hop'
  rcases (sound_exec hrun).traced (hstate he) hpins with ⟨action, hcall⟩ | hcall
  · rcases (sound_exec hrun).traced (hstate he') hpins' with ⟨action', hcall'⟩ | hcall'
    · cases hcall.symm.trans hcall'
      rfl
    · cases hcall.symm.trans hcall'
  · rcases (sound_exec hrun).traced (hstate he') hpins' with ⟨action', hcall'⟩ | hcall'
    · cases hcall.symm.trans hcall'
    · cases hcall.symm.trans hcall'
      rfl

/-- Two locks, and a code for the one whose address the call spells in capitals. -/
def frontDoorTurns : List HouseTurn :=
  [.added "front" "0a:90:69:e7" ⟨none, fun _ => none⟩, .added "back" "0a:90:69:e8" ⟨none, fun _ => none⟩,
    .entry "front" (.build 0), .entry "front" (.publish 0), .loaded "front",
    .entry "back" (.build 0), .entry "back" (.publish 0), .loaded "back",
    .service 7 ⟨.setPin 5 "Ola" "56789", none, some "0A:90:69:E7"⟩]

def asciiTables : Unicode := ⟨.asciiOnly, fun s => String.ofList (s.toList.map Char.toLower)⟩

theorem exec_commands_frontDoor :
    ∃ h e, exec (House.step asciiTables) start frontDoorTurns = some h ∧ h.entries "front" = some e ∧
      Asked asciiTables frontDoorTurns 7 "front" (.pin (.setPin 5 "Ola" "56789")) := by
  have hrun : (exec (House.step asciiTables) start frontDoorTurns).map (fun h =>
      (h.entries "front").map (fun e => e.state.inFlight 7)) =
        some (some (some (.setPin 5 "Ola" "56789"))) := by decide +kernel
  obtain ⟨h, hh, hentry⟩ := Option.map_eq_some_iff.mp hrun
  obtain ⟨e, he, hop⟩ := Option.map_eq_some_iff.mp hentry
  refine ⟨h, e, hh, he, ?_⟩
  rcases (exec_commands hh he hop).1 with hasked | ⟨before, cid, after, hturns⟩
  · exact hasked
  · have hmem : HouseTurn.dialog 7 "front" cid (.setPin 5 "Ola" "56789") ∈ frontDoorTurns := by
      rw [hturns]
      simp
    simp [frontDoorTurns] at hmem

end House

end OnestiLock
