import OnestiLock.CoordinatorMoves
import OnestiLock.Services

/-! Which lock a service call designates, and what one turn of the house does to
the coordinators, the calls and the log. -/

namespace OnestiLock

open Python

/-! How the PIN operation of a task comes and goes. -/

namespace EntryState

variable {w t : EntryState} {turn : Turn} {tid : JobId} {cid : CoordinatorId} {op : PinOp}

/-- A PIN operation that runs was running already, or has just been called. -/
theorem pins_step_back {stage : PinStage} (h : w.step turn = some t)
    (ht : t.pins tid = some (cid, op, stage)) :
    (∃ stage', w.pins tid = some (cid, op, stage')) ∨ turn = .call tid cid op := by
  have hold : ∀ {a v}, t.pins = Function.update w.pins a v →
      (tid = a → v = some (cid, op, stage) →
        (∃ stage', w.pins tid = some (cid, op, stage')) ∨ turn = .call tid cid op) →
      (∃ stage', w.pins tid = some (cid, op, stage')) ∨ turn = .call tid cid op := by
    intro a v hpins hself
    rw [hpins] at ht
    by_cases ha : tid = a
    · subst ha
      rw [Function.update_self] at ht
      exact hself rfl ht
    · rw [Function.update_of_ne ha] at ht
      exact Or.inl ⟨stage, ht⟩
  cases step_pinMove h with
  | quiet same hexec hpin => exact Or.inl ⟨stage, same.1 ▸ ht⟩
  | wait idle writable hpins hholder =>
    refine hold hpins (fun ha hv => ?_)
    cases hv
    exact Or.inr (by rw [ha])
  | start idle writable free hpins hholder =>
    refine hold hpins (fun ha hv => ?_)
    cases hv
    exact Or.inr (by rw [ha])
  | take waiting free hpins hholder =>
    refine hold hpins (fun ha hv => ?_)
    cases hv
    exact Or.inl ⟨_, ha ▸ waiting⟩
  | execute sending hpins hholder =>
    refine hold hpins (fun ha hv => ?_)
    cases hv
    exact Or.inl ⟨_, ha ▸ sending⟩
  | finish sending taken hpins hholder => exact hold hpins (fun _ hv => by cases hv)
  | leaveQueue waiting hpins hholder => exact hold hpins (fun _ hv => by cases hv)
  | leaveSend sending hpins hholder => exact hold hpins (fun _ hv => by cases hv)

theorem jobs_answered {outcome : SendOutcome} {background : JobId}
    (h : w.answered tid outcome background = some t) :
    t.jobs tid = .finished (.returned outcome) := by
  obtain ⟨cid, op, request, executed, c, r, -, -, -, -, rfl⟩ := answered_cases h
  exact Function.update_self ..

theorem jobs_unwind (h : w.unwind tid = some t) : t.jobs tid = .finished .cancelled := by
  unfold unwind at h
  split at h
  all_goals first
    | exact Option.some.inj h ▸ Function.update_self ..
    | cases h

/-- What becomes of a running PIN operation in one turn. -/
theorem pins_step_on {stage : PinStage} (h : w.step turn = some t)
    (hw : w.pins tid = some (cid, op, stage)) :
    (∃ stage', t.pins tid = some (cid, op, stage')) ∨
      (∃ outcome background, turn = .answered tid outcome background ∧
        t.jobs tid = .finished (.returned outcome)) ∨
      (turn = .unwind tid ∧ t.jobs tid = .finished .cancelled) := by
  have hkeep : ∀ {a v}, t.pins = Function.update w.pins a v → tid ≠ a →
      ∃ stage', t.pins tid = some (cid, op, stage') := by
    intro a v hpins hne
    exact ⟨stage, by rw [hpins, Function.update_of_ne hne, hw]⟩
  have hne : ∀ {a}, w.pins a = none → tid ≠ a := by
    intro a ha he
    rw [he, ha] at hw
    cases hw
  have hmove : ∀ {a c o before after}, w.pins a = some (c, o, before) →
      t.pins = Function.update w.pins a (some (c, o, after)) →
      ∃ stage', t.pins tid = some (cid, op, stage') := by
    intro a c o before after ha hpins
    by_cases he : tid = a
    · subst he
      rw [hw] at ha
      cases ha
      exact ⟨after, by rw [hpins, Function.update_self]⟩
    · exact hkeep hpins he
  cases step_pinMove h with
  | quiet same hexec hpin => exact Or.inl ⟨stage, by rw [same.1, hw]⟩
  | wait idle writable hpins hholder => exact Or.inl (hkeep hpins (hne idle))
  | start idle writable free hpins hholder => exact Or.inl (hkeep hpins (hne idle))
  | take waiting free hpins hholder => exact Or.inl (hmove waiting hpins)
  | execute sending hpins hholder => exact Or.inl (hmove sending hpins)
  | @finish a c o request executed outcome background sending taken hpins hholder =>
    by_cases he : tid = a
    · subst he
      exact Or.inr (Or.inl ⟨outcome, background, rfl, jobs_answered h⟩)
    · exact Or.inl (hkeep hpins he)
  | @leaveQueue a c o waiting hpins hholder =>
    by_cases he : tid = a
    · subst he
      exact Or.inr (Or.inr ⟨rfl, jobs_unwind h⟩)
    · exact Or.inl (hkeep hpins he)
  | @leaveSend a c o request executed sending hpins hholder =>
    by_cases he : tid = a
    · subst he
      exact Or.inr (Or.inr ⟨rfl, jobs_unwind h⟩)
    · exact Or.inl (hkeep hpins he)

/-- A call on a slot that may be written starts or waits. -/
theorem pins_call (h : w.step (.call tid cid op) = some t)
    (hslot : firstUserSlot w.entry.options ≤ op.slot) :
    ∃ stage, t.jobs tid = .pin cid op stage := by
  obtain ⟨c, -, h⟩ := Option.bind_eq_some_iff.mp h
  split_ifs at h
  rw [← Option.some.inj h]
  unfold callPin
  rw [checkWritable_ok.mpr hslot]
  dsimp only
  split
  · exact ⟨_, Function.update_self ..⟩
  · exact ⟨_, Function.update_self ..⟩

end EntryState

theorem callEnd_of_pins {w : EntryState} {tid : JobId} {p : CoordinatorId × PinOp × PinStage}
    (h : w.pins tid = some p) : callEnd (w.jobs tid) = none := by
  unfold EntryState.pins at h
  cases hjob : w.jobs tid with
  | pin cid op stage => rfl
  | idle => rfl
  | refresh cid stage => rfl
  | finished result =>
    rw [hjob] at h
    cases h

/-! What a call is for. -/

def ServiceRequest.op? : ServiceRequest → Option PinOp
  | setPin slot name code => some (.setPin slot name code)
  | clearPin slot => some (.clearPin slot)
  | clearSlot slot => some (.clearSlot slot)
  | setName _ _ => none

/-- The last slot an operation may be on: a code fits where the lock has room. -/
def Target.lastSlot (c : Target) : PinOp → Int
  | .setPin .. => maxUserSlot c.capabilities
  | .clearPin _ | .clearSlot _ => maxSlots - 1

/-- A lock takes the operation. -/
structure Target.Takes (u : Unicode) (c : Target) (op : PinOp) : Prop where
  first : firstUserSlot c.options ≤ op.slot
  last : op.slot ≤ c.lastSlot op
  code : ∀ slot name code, op = .setPin slot name code → isValidPin u.digits (text code) c.capabilities = true

namespace House

variable {u : Unicode} {h t : House} {call : ServiceCall} {c : Target}

/-- The lock a call names: by its device, else by its address, else as the only one there is. -/
def Designates (u : Unicode) (h : House) (call : ServiceCall) (id : String) : Prop :=
  match call.deviceId.filter (· ≠ ""), call.ieee.filter (· ≠ "") with
  | some deviceId, _ => ∃ identifiers, h.devices deviceId = some identifiers ∧ (registryDomain, id) ∈ identifiers
  | none, some ieee => ∃ c, h.target id = some c ∧ u.lower c.ieee = u.lower ieee
  | none, none => ∀ other, (h.target other).isSome → other = id

def Listed (h : House) : Prop := ∀ id, (h.entries id).isSome → id ∈ h.order

theorem entries_of_target {id : String} (ht : h.target id = some c) :
    ∃ e, h.entries id = some e ∧ e.loaded = true ∧ c.entryId = id ∧ c.options = e.state.entry.options ∧
      e.state.entry.runtimeData = some c.cid ∧ e.state.coordinators c.cid = some c.coordinator := by
  obtain ⟨e, he, ht⟩ := Option.bind_eq_some_iff.mp ht
  split_ifs at ht with hloaded
  obtain ⟨cid, hcid, ht⟩ := Option.bind_eq_some_iff.mp ht
  obtain ⟨coordinator, hcoordinator, ht⟩ := Option.bind_eq_some_iff.mp ht
  rw [← Option.some.inj ht]
  exact ⟨e, he, hloaded, rfl, rfl, hcid, hcoordinator⟩

theorem target_of_mem (hc : c ∈ h.coordinators) : h.target c.entryId = some c := by
  obtain ⟨id, -, hid⟩ := List.mem_filterMap.mp hc
  obtain ⟨-, -, -, hentry, -⟩ := entries_of_target hid
  rw [hentry, hid]

theorem entryIdForDevice_ok {deviceId id : String} (he : h.entryIdForDevice deviceId = .ok id) :
    ∃ identifiers, h.devices deviceId = some identifiers ∧ (registryDomain, id) ∈ identifiers := by
  unfold entryIdForDevice at he
  split at he
  · rename_i identifier hfound
    obtain ⟨identifiers, hdevice, hfind⟩ := Option.bind_eq_some_iff.mp hfound
    have hdomain := List.find?_some hfind
    have hid : identifier = (registryDomain, id) :=
      Prod.ext (eq_of_beq hdomain) (Except.ok.inj he)
    exact ⟨identifiers, hdevice, hid ▸ List.mem_of_find?_eq_some hfind⟩
  · cases he

theorem getCoordinator_ok (hlisted : h.Listed) (hc : h.getCoordinator u call = .ok c) :
    h.target c.entryId = some c ∧ h.Designates u call c.entryId := by
  unfold getCoordinator at hc
  unfold Designates
  cases hdevice : call.deviceId.filter (· ≠ "") with
  | some deviceId =>
    simp only [hdevice] at hc ⊢
    cases hentry : h.entryIdForDevice deviceId with
    | error e =>
      rw [hentry] at hc
      cases hc
    | ok id =>
      rw [hentry] at hc
      cases hfind : h.coordinators.find? (fun c => c.entryId == id) with
      | none =>
        simp only [hfind, bind, Except.bind] at hc
        cases hc
      | some found =>
        simp only [hfind, bind, Except.bind] at hc
        obtain rfl := Except.ok.inj hc
        have hfound := List.find?_some hfind
        have hid : found.entryId = id := eq_of_beq hfound
        exact ⟨target_of_mem (List.mem_of_find?_eq_some hfind), hid ▸ entryIdForDevice_ok hentry⟩
  | none =>
    cases hieee : call.ieee.filter (· ≠ "") with
    | some ieee =>
      simp only [hdevice, hieee] at hc ⊢
      cases hfind : findByIeee u h.coordinators ieee with
      | none =>
        rw [hfind] at hc
        cases hc
      | some found =>
        rw [hfind] at hc
        obtain rfl := Except.ok.inj hc
        have htarget := target_of_mem (List.mem_of_find?_eq_some hfind)
        have hfound := List.find?_some hfind
        exact ⟨htarget, found, htarget, eq_of_beq hfound⟩
    | none =>
      simp only [hdevice, hieee] at hc ⊢
      cases hall : h.coordinators with
      | nil =>
        rw [hall] at hc
        cases hc
      | cons only rest =>
        cases rest with
        | cons second rest =>
          rw [hall] at hc
          cases hc
        | nil =>
          rw [hall] at hc
          obtain rfl := Except.ok.inj hc
          refine ⟨target_of_mem (by rw [hall]; exact List.mem_cons_self), fun other hother => ?_⟩
          obtain ⟨c, hc⟩ := Option.isSome_iff_exists.mp hother
          obtain ⟨e, he, -, hentry, -⟩ := entries_of_target hc
          have hmem : c ∈ h.coordinators :=
            List.mem_filterMap.mpr ⟨other, hlisted other (by rw [he]; rfl), hc⟩
          rw [hall] at hmem
          rw [← hentry, List.mem_singleton.mp hmem]

/-- What the checks of a handler have established once it writes. -/
theorem handle_write {action : String} {op : PinOp} (hh : h.handle u call = .ok (c, .write action op)) :
    h.getCoordinator u call = .ok c ∧ call.request.op? = some op ∧ c.Takes u op := by
  have hclear : ∀ {action' : String} {op' : PinOp}, h.handleClear u call action' op' = .ok (c, .write action op) →
      h.getCoordinator u call = .ok c ∧ op' = op ∧ firstUserSlot c.options ≤ op.slot ∧ op.slot < maxSlots := by
    intro action' op' hwrite
    obtain ⟨found, hfound, hwrite⟩ := bind_eq_ok.mp hwrite
    dsimp only at hwrite
    split_ifs at hwrite with hslot
    cases Except.ok.inj hwrite
    exact ⟨hfound, rfl, hslot⟩
  unfold handle at hh
  cases hrequest : call.request with
  | setPin slot name code =>
    rw [hrequest] at hh
    obtain ⟨found, hfound, hwrite⟩ := bind_eq_ok.mp hh
    dsimp only at hwrite
    split_ifs at hwrite with hslot hpin
    cases Except.ok.inj hwrite
    refine ⟨hfound, rfl, hslot.1, hslot.2, fun _ _ _ hop => ?_⟩
    cases hop
    simpa using hpin
  | clearPin slot =>
    rw [hrequest] at hh
    obtain ⟨hfound, rfl, hfirst, hlast⟩ := hclear hh
    refine ⟨hfound, rfl, hfirst, ?_, fun _ _ _ hop => by cases hop⟩
    change slot ≤ maxSlots - 1
    change slot < maxSlots at hlast
    omega
  | clearSlot slot =>
    rw [hrequest] at hh
    obtain ⟨hfound, rfl, hfirst, hlast⟩ := hclear hh
    refine ⟨hfound, rfl, hfirst, ?_, fun _ _ _ hop => by cases hop⟩
    change slot ≤ maxSlots - 1
    change slot < maxSlots at hlast
    omega
  | setName slot name =>
    rw [hrequest] at hh
    unfold handleSetName at hh
    dsimp only at hh
    split_ifs at hh
    obtain ⟨found, -, hwrite⟩ := bind_eq_ok.mp hh
    cases Except.ok.inj hwrite

theorem handle_name {slot : Int} {name : String} (hh : h.handle u call = .ok (c, .name slot name)) :
    h.getCoordinator u call = .ok c ∧ call.request = .setName slot name ∧ 0 ≤ slot ∧ slot < maxSlots := by
  have hclear : ∀ {action : String} {op : PinOp}, h.handleClear u call action op ≠ .ok (c, .name slot name) := by
    intro action op hname
    obtain ⟨found, -, hname⟩ := bind_eq_ok.mp hname
    dsimp only at hname
    split_ifs at hname
    cases Except.ok.inj hname
  unfold handle at hh
  cases hrequest : call.request with
  | setPin slot name code =>
    rw [hrequest] at hh
    obtain ⟨found, -, hname⟩ := bind_eq_ok.mp hh
    dsimp only at hname
    split_ifs at hname
    cases Except.ok.inj hname
  | clearPin slot =>
    rw [hrequest] at hh
    exact absurd hh hclear
  | clearSlot slot =>
    rw [hrequest] at hh
    exact absurd hh hclear
  | setName slot name =>
    rw [hrequest] at hh
    unfold handleSetName at hh
    dsimp only at hh
    split_ifs at hh with hslot
    obtain ⟨found, hfound, hname⟩ := bind_eq_ok.mp hh
    cases Except.ok.inj hname
    exact ⟨hfound, rfl, hslot⟩

/-- The coordinators of an entry. -/
def state (h : House) (id : String) : Option EntryState := (h.entries id).map HouseEntry.state

/-- What a turn that adds no entry leaves. -/
structure Leaves (h t : House) (state : String → Option EntryState) (calls : JobId → Option CallState)
    (log : List Text) : Prop where
  state : t.state = state
  calls : t.calls = calls
  log : t.log = log
  order : t.order = h.order

def failureLine (u : Unicode) (action : String) (slot : Int) (typeName : String) (message : Text) : Text :=
  text s!"Unexpected error {action} on slot {slot}: {typeName}: " ++ redactDigits u.digits message

end House

/-- The turns that leave the coordinators alone. -/
def HouseTurn.arranges : HouseTurn → Bool
  | readdressed .. | loaded _ | unloading _ | device .. => true
  | added .. | entry .. | dialog .. | service .. | raises .. => false

open House in
/-- What one turn does. -/
inductive HouseMove (u : Unicode) (h t : House) : HouseTurn → Prop
  | arranges {turn : HouseTurn} (quiet : turn.arranges = true)
      (leaves : h.Leaves t h.state h.calls h.log) : HouseMove u h t turn
  | adds {id ieee : String} {options : Options} (absent : h.state id = none)
      (state : t.state = Function.update h.state id (some (.fresh options)))
      (calls : t.calls = h.calls) (log : t.log = h.log) (order : t.order = h.order ++ [id]) :
      HouseMove u h t (.added id ieee options)
  | turns {id : String} {turn : Turn} {w w' : EntryState} (own : turn.isCall = false)
      (before : h.state id = some w) (after : w.step turn = some w')
      (leaves : h.Leaves t (Function.update h.state id (some w')) (h.settle id w') h.log) :
      HouseMove u h t (.entry id turn)
  | dialogs {tid : JobId} {id : String} {cid : CoordinatorId} {op : PinOp} {w w' : EntryState}
      (free : h.calls tid = none) (before : h.state id = some w)
      (after : w.step (.call tid cid op) = some w')
      (leaves : h.Leaves t (Function.update h.state id (some w'))
        (Function.update (h.settle id w') tid (some (.dialog id op))) h.log) :
      HouseMove u h t (.dialog tid id cid op)
  | refuses {tid : JobId} {call : ServiceCall} {error : ServiceError} (free : h.calls tid = none)
      (handled : h.handle u call = .error error)
      (leaves : h.Leaves t h.state (Function.update h.calls tid (some (.ended (.raised error)))) h.log) :
      HouseMove u h t (.service tid call)
  | names {tid : JobId} {call : ServiceCall} {c : Target} {slot : Int} {name : String} {w w' : EntryState}
      (free : h.calls tid = none) (handled : h.handle u call = .ok (c, .name slot name))
      (before : h.state c.entryId = some w) (after : w.step (.setSlotName c.cid slot name) = some w')
      (leaves : h.Leaves t (Function.update h.state c.entryId (some w'))
        (Function.update (h.settle c.entryId w') tid (some (.ended .returned))) h.log) :
      HouseMove u h t (.service tid call)
  | writes {tid : JobId} {call : ServiceCall} {c : Target} {action : String} {op : PinOp}
      {w w' : EntryState} (free : h.calls tid = none) (handled : h.handle u call = .ok (c, .write action op))
      (before : h.state c.entryId = some w) (after : w.step (.call tid c.cid op) = some w')
      (started : ∃ stage, w'.pins tid = some (c.cid, op, stage))
      (leaves : h.Leaves t (Function.update h.state c.entryId (some w'))
        (Function.update (h.settle c.entryId w') tid (some (.writing c.entryId action op))) h.log) :
      HouseMove u h t (.service tid call)
  | raises {tid : JobId} {typeName : String} {pieces : List Quote} {id action : String} {op : PinOp}
      {w w' : EntryState} (writing : h.calls tid = some (.writing id action op))
      (before : h.state id = some w) (after : w.step (.unwind tid) = some w')
      (leaves : h.Leaves t (Function.update h.state id (some w'))
        (Function.update (h.settle id w') tid (some (.ended (.raised (.writeFailed action op.slot)))))
        (h.log ++ [failureLine u action op.slot typeName (op.quoted pieces)])) :
      HouseMove u h t (.raises tid typeName pieces)

namespace House

variable {u : Unicode} {h t : House} {id : String}

theorem state_update (entries : String → Option HouseEntry) (e : HouseEntry) :
    (fun other => (Function.update entries id (some e) other).map HouseEntry.state) =
      Function.update (fun other => (entries other).map HouseEntry.state) id (some e.state) := by
  funext other
  by_cases hid : other = id
  · rw [hid, Function.update_self, Function.update_self]
    rfl
  · rw [Function.update_of_ne hid, Function.update_of_ne hid]

/-- An entry that is only told something keeps its coordinators. -/
theorem leaves_setEntry {e e' : HouseEntry} (he : h.entries id = some e) (hstate : e'.state = e.state) :
    h.Leaves (h.setEntry id e') h.state h.calls h.log := by
  refine ⟨?_, rfl, rfl, rfl⟩
  have hself : h.state id = some e.state := by rw [state, he]; rfl
  have hupdate : (h.setEntry id e').state = Function.update h.state id (some e'.state) := state_update ..
  rw [hupdate, hstate, ← hself]
  exact Function.update_eq_self ..

theorem turn_move {turn : Turn} (ht : h.turn id turn = some t) :
    ∃ w w', h.state id = some w ∧ w.step turn = some w' ∧
      h.Leaves t (Function.update h.state id (some w')) (h.settle id w') h.log ∧
      (t.entries id).map HouseEntry.state = some w' := by
  obtain ⟨e, he, ht⟩ := Option.bind_eq_some_iff.mp ht
  obtain ⟨e', he', ht⟩ := Option.bind_eq_some_iff.mp ht
  obtain ⟨w', hw', he'⟩ := Option.bind_eq_some_iff.mp he'
  rw [← Option.some.inj ht, ← Option.some.inj he']
  refine ⟨e.state, w', by rw [state, he]; rfl, hw', ⟨state_update .., rfl, rfl, rfl⟩, ?_⟩
  dsimp only
  rw [Function.update_self]
  rfl

theorem Leaves.setCall {state : String → Option EntryState} {calls : JobId → Option CallState} {log : List Text}
    (hl : h.Leaves t state calls log) (tid : JobId) (call : CallState) :
    h.Leaves (t.setCall tid call) state (Function.update calls tid (some call)) log :=
  ⟨hl.state, by rw [← hl.calls]; rfl, hl.log, hl.order⟩

theorem Leaves.failed {state : String → Option EntryState} {calls : JobId → Option CallState} {log : List Text}
    (hl : h.Leaves t state calls log) (tid : JobId) (action : String) (slot : Int) (typeName : String) (message : Text) :
    h.Leaves (t.failed u tid action slot typeName message) state
      (Function.update calls tid (some (.ended (.raised (.writeFailed action slot)))))
      (log ++ [failureLine u action slot typeName message]) :=
  ⟨hl.state, by rw [← hl.calls]; rfl, by rw [← hl.log]; rfl, hl.order⟩

theorem service_move (hlisted : h.Listed) {tid : JobId} {call : ServiceCall} (hfree : h.calls tid = none)
    (ht : h.service u tid call = some t) : HouseMove u h t (.service tid call) := by
  unfold service at ht
  cases hh : h.handle u call with
  | error error =>
    rw [hh] at ht
    rw [← Option.some.inj ht]
    exact .refuses hfree hh ⟨rfl, rfl, rfl, rfl⟩
  | ok found =>
    obtain ⟨c, work⟩ := found
    rw [hh] at ht
    cases work with
    | name slot name =>
      obtain ⟨r, hr, ht⟩ := Option.bind_eq_some_iff.mp ht
      obtain ⟨w, w', hw, hw', hl, -⟩ := turn_move hr
      rw [← Option.some.inj ht]
      exact .names hfree hh hw hw' (hl.setCall tid _)
    | write action op =>
      obtain ⟨r, hr, ht⟩ := Option.bind_eq_some_iff.mp ht
      obtain ⟨w, w', hw, hw', hl, hentry⟩ := turn_move hr
      obtain ⟨e, he, ht⟩ := Option.bind_eq_some_iff.mp ht
      rw [he] at hentry
      have hstate : e.state = w' := Option.some.inj hentry
      -- The coordinator makes the check of the handler again.
      obtain ⟨hcoordinator, -, htakes⟩ := handle_write hh
      obtain ⟨e₀, he₀, -, -, hoptions, -⟩ := entries_of_target (getCoordinator_ok hlisted hcoordinator).1
      have hw₀ : w = e₀.state := by
        rw [state, he₀] at hw
        exact (Option.some.inj hw).symm
      obtain ⟨stage, hjob⟩ := EntryState.pins_call hw' (by rw [hw₀, ← hoptions]; exact htakes.first)
      rw [hstate, hjob] at ht
      rw [← Option.some.inj ht]
      exact .writes hfree hh hw hw' ⟨stage, EntryState.pins_of_job hjob⟩ (hl.setCall tid _)

theorem raises_move {tid : JobId} {typeName : String} {pieces : List Quote}
    (ht : h.raises u tid typeName pieces = some t) : HouseMove u h t (.raises tid typeName pieces) := by
  unfold raises at ht
  split at ht
  · rename_i id action op hwriting
    obtain ⟨e, he, ht⟩ := Option.bind_eq_some_iff.mp ht
    split at ht
    · obtain ⟨r, hr, ht⟩ := Option.bind_eq_some_iff.mp ht
      obtain ⟨w, w', hw, hw', hl, -⟩ := turn_move hr
      rw [← Option.some.inj ht]
      exact .raises hwriting hw hw' (hl.failed tid action op.slot typeName _)
    · cases ht
  · cases ht

theorem step_move (hlisted : h.Listed) {turn : HouseTurn} (ht : h.step u turn = some t) : HouseMove u h t turn := by
  cases turn with
  | added id ieee options =>
    simp only [step] at ht
    split_ifs at ht with habsent
    rw [← Option.some.inj ht]
    have hnone : h.entries id = none := Option.isNone_iff_eq_none.mp habsent
    exact .adds (by rw [state, hnone]; rfl) (state_update ..) rfl rfl rfl
  | readdressed id ieee =>
    obtain ⟨e, he, ht⟩ := Option.bind_eq_some_iff.mp ht
    rw [← Option.some.inj ht]
    exact .arranges rfl (leaves_setEntry he rfl)
  | loaded id =>
    obtain ⟨e, he, ht⟩ := Option.bind_eq_some_iff.mp ht
    split_ifs at ht
    rw [← Option.some.inj ht]
    exact .arranges rfl (leaves_setEntry he rfl)
  | unloading id =>
    obtain ⟨e, he, ht⟩ := Option.bind_eq_some_iff.mp ht
    rw [← Option.some.inj ht]
    exact .arranges rfl (leaves_setEntry he rfl)
  | device deviceId identifiers =>
    rw [← Option.some.inj ht]
    exact .arranges rfl ⟨rfl, rfl, rfl, rfl⟩
  | entry id turn =>
    simp only [step] at ht
    split_ifs at ht with hcall
    obtain ⟨w, w', hw, hw', hl, -⟩ := turn_move ht
    exact .turns (by simpa using hcall) hw hw' hl
  | dialog tid id cid op =>
    simp only [step] at ht
    split_ifs at ht with hfree
    obtain ⟨r, hr, ht⟩ := Option.bind_eq_some_iff.mp ht
    obtain ⟨w, w', hw, hw', hl, -⟩ := turn_move hr
    rw [← Option.some.inj ht]
    exact .dialogs (Option.isNone_iff_eq_none.mp hfree) hw hw' (hl.setCall tid _)
  | service tid call =>
    simp only [step] at ht
    split_ifs at ht with hfree
    exact service_move hlisted (Option.isNone_iff_eq_none.mp hfree) ht
  | raises tid typeName pieces => exact raises_move ht

end House

end OnestiLock
