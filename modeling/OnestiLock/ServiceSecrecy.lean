import OnestiLock.CoordinatorRecoding
import OnestiLock.ServiceRuns

/-! PIN codes stay between a caller and the lock. A run with other codes in its
calls, each as good as the one it stands for, is the same run with the other codes
on the radio: the log, what is stored and what the callers are told are the same. -/

namespace OnestiLock

open Python Transition RunMasking

/-- Every code is as good as the one it stands for, whatever a lock reports. -/
def Recoding.Fits (digits : DigitTable) (f : Recoding) : Prop :=
  ∀ tid code capabilities, isValidPin digits (text (f tid code)) capabilities =
    isValidPin digits (text code) capabilities

def ServiceRequest.recode (f : String → String) : ServiceRequest → ServiceRequest
  | .setPin slot name code => .setPin slot name (f code)
  | .clearPin slot => .clearPin slot
  | .setName slot name => .setName slot name
  | .clearSlot slot => .clearSlot slot

def ServiceCall.recode (f : String → String) (call : ServiceCall) : ServiceCall :=
  { call with request := call.request.recode f }

def ServiceWork.recode (f : String → String) : ServiceWork → ServiceWork
  | .write action op => .write action (op.recode f)
  | .name slot given => .name slot given

def CallState.recode (f : String → String) : CallState → CallState
  | .writing entryId action op => .writing entryId action (op.recode f)
  | .ended how => .ended how
  | .dialog entryId op => .dialog entryId (op.recode f)

def HouseTurn.recode (f : Recoding) : HouseTurn → HouseTurn
  | .dialog tid id cid op => .dialog tid id cid (op.recode (f tid))
  | .service tid call => .service tid (call.recode (f tid))
  | turn => turn

def HouseEntry.recode (f : Recoding) (e : HouseEntry) : HouseEntry := { e with state := e.state.recode f }

def House.recode (f : Recoding) (h : House) : House :=
  { h with
    entries := fun id => (h.entries id).map (HouseEntry.recode f)
    calls := fun tid => (h.calls tid).map (CallState.recode (f tid)) }

theorem HouseEntry.recode_turn {f : Recoding} {e : HouseEntry} (turn : Turn) :
    (e.recode f).turn (turn.recode f) = (e.turn turn).map (recode f) := by
  have hstep : (e.recode f).state.step (turn.recode f) = (e.state.step turn).map (EntryState.recode f) :=
    EntryState.recode_step turn
  unfold HouseEntry.turn
  rw [hstep]
  cases e.state.step turn with
  | none => rfl
  | some w => cases turn <;> rfl

theorem Turn.recode_of_not_call {f : Recoding} {turn : Turn} (h : turn.isCall = false) : turn.recode f = turn := by
  cases turn with
  | call tid cid op => cases h
  | _ => rfl

/-! What an exception quotes of a code, the log does not show. -/

/-- The operation sets no code, or one that some lock takes. -/
def PinOp.Coded (digits : DigitTable) (op : PinOp) : Prop :=
  ∀ slot name code, op = .setPin slot name code → ∃ capabilities, isValidPin digits (text code) capabilities = true

theorem redactDigits_quoted {digits : DigitTable} {f : Recoding} (hf : f.Fits digits) {op : PinOp} {tid : JobId}
    (hop : op.Coded digits) (pieces : List Quote) :
    redactDigits digits ((op.recode (f tid)).quoted pieces) = redactDigits digits (op.quoted pieces) := by
  have hswap : ∀ before after, redactDigits digits (before ++ ((op.recode (f tid)).code ++ after)) =
      redactDigits digits (before ++ (op.code ++ after)) := by
    intro before after
    cases op with
    | clearPin slot => rfl
    | clearSlot slot => rfl
    | setPin slot name code =>
      obtain ⟨capabilities, hvalid⟩ := hop slot name code rfl
      have hold := isValidPin_spec hvalid
      have hnew := isValidPin_spec ((hf tid code capabilities).trans hvalid)
      exact maskRuns_swap (by decide) hnew.2 hnew.1 hold.2 hold.1 before after
  have hall : ∀ before, redactDigits digits (before ++ (op.recode (f tid)).quoted pieces) =
      redactDigits digits (before ++ op.quoted pieces) := by
    induction pieces with
    | nil => exact fun _ => rfl
    | cons piece pieces ih =>
      intro before
      cases piece with
      | said words =>
        have hrest := ih (before ++ words)
        rwa [List.append_assoc, List.append_assoc] at hrest
      | code =>
        have hrest := ih (before ++ op.code)
        rw [List.append_assoc, List.append_assoc] at hrest
        exact (hswap before _).trans hrest
  exact hall []

namespace House

variable {u : Unicode} {f : Recoding} {h t : House} {id : String} {tid : JobId} {call : ServiceCall}

@[simp] theorem order_recode : (h.recode f).order = h.order := rfl

@[simp] theorem devices_recode : (h.recode f).devices = h.devices := rfl

@[simp] theorem log_recode : (h.recode f).log = h.log := rfl

@[simp] theorem entries_recode : (h.recode f).entries id = (h.entries id).map (HouseEntry.recode f) := rfl

@[simp] theorem calls_recode : (h.recode f).calls tid = (h.calls tid).map (CallState.recode (f tid)) := rfl

theorem ext {h t : House} (horder : h.order = t.order) (hentries : h.entries = t.entries)
    (hdevices : h.devices = t.devices) (hcalls : h.calls = t.calls) (hlog : h.log = t.log) : h = t := by
  cases h
  cases t
  simp only at horder hentries hdevices hcalls hlog
  rw [horder, hentries, hdevices, hcalls, hlog]

@[simp] theorem target_recode : (h.recode f).target id = h.target id := by
  unfold target
  rw [entries_recode]
  cases h.entries id <;> rfl

@[simp] theorem coordinators_recode : (h.recode f).coordinators = h.coordinators := by
  unfold coordinators
  rw [order_recode, show (h.recode f).target = h.target from funext (fun _ => target_recode)]

theorem getCoordinator_recode (g : String → String) :
    (h.recode f).getCoordinator u (call.recode g) = h.getCoordinator u call := by
  unfold getCoordinator
  rw [coordinators_recode]
  rfl

/-- The handlers look at a code for whether it is good, and hand it on. -/
theorem handle_recode (hf : f.Fits u.digits) :
    (h.recode f).handle u (call.recode (f tid)) =
      (h.handle u call).map (fun found => (found.1, found.2.recode (f tid))) := by
  have hclear : ∀ action op, op.recode (f tid) = op → (h.recode f).handleClear u (call.recode (f tid)) action op =
      (h.handleClear u call action op).map (fun found => (found.1, found.2.recode (f tid))) := by
    intro action op hop
    unfold handleClear
    rw [getCoordinator_recode]
    cases h.getCoordinator u call with
    | error e => rfl
    | ok c =>
      simp only [bind, Except.bind]
      split_ifs
      · simp only [Except.map, ServiceWork.recode, hop]
      · rfl
  unfold handle
  cases hrequest : call.request with
  | setPin slot name code =>
    have hnew : (call.recode (f tid)).request = .setPin slot name (f tid code) := by
      rw [ServiceCall.recode, hrequest]
      rfl
    rw [hnew]
    dsimp only
    unfold handleSetPin
    rw [getCoordinator_recode]
    cases h.getCoordinator u call with
    | error e => rfl
    | ok c =>
      simp only [bind, Except.bind, hf tid code]
      split_ifs <;> rfl
  | clearPin slot =>
    have hnew : (call.recode (f tid)).request = .clearPin slot := by
      rw [ServiceCall.recode, hrequest]
      rfl
    rw [hnew]
    exact hclear _ _ rfl
  | clearSlot slot =>
    have hnew : (call.recode (f tid)).request = .clearSlot slot := by
      rw [ServiceCall.recode, hrequest]
      rfl
    rw [hnew]
    exact hclear _ _ rfl
  | setName slot name =>
    have hnew : (call.recode (f tid)).request = .setName slot name := by
      rw [ServiceCall.recode, hrequest]
      rfl
    rw [hnew]
    dsimp only
    unfold handleSetName
    rw [getCoordinator_recode]
    split_ifs
    · cases h.getCoordinator u call <;> rfl
    · rfl

theorem settle_recode (w : EntryState) : (h.recode f).settle id (w.recode f) = fun tid =>
    (h.settle id w tid).map (CallState.recode (f tid)) := by
  funext tid
  unfold settle
  rw [calls_recode]
  cases hcall : h.calls tid with
  | none => rfl
  | some state =>
    cases state with
    | ended how => rfl
    | dialog entryId op => rfl
    | writing entryId action op =>
      simp only [Option.map_some, CallState.recode, EntryState.jobs_recode, callEnd_recode]
      split_ifs
      · cases callEnd (w.jobs tid) <;> rfl
      · rfl

theorem map_update (g : HouseEntry → HouseEntry) (entries : String → Option HouseEntry) (e : HouseEntry) :
    (fun other => (Function.update entries id (some e) other).map g) =
      Function.update (fun other => (entries other).map g) id (some (g e)) := by
  funext other
  by_cases hid : other = id
  · rw [hid, Function.update_self, Function.update_self]
    rfl
  · rw [Function.update_of_ne hid, Function.update_of_ne hid]

theorem recode_setEntry (e : HouseEntry) : (h.setEntry id e).recode f = (h.recode f).setEntry id (e.recode f) :=
  ext rfl (map_update ..) rfl rfl rfl

theorem recode_setCall (state : CallState) :
    (h.setCall tid state).recode f = (h.recode f).setCall tid (state.recode (f tid)) := by
  refine ext rfl rfl rfl ?_ rfl
  funext other
  change (Function.update h.calls tid (some state) other).map (CallState.recode (f other)) =
    Function.update (fun a => (h.calls a).map (CallState.recode (f a))) tid (some (state.recode (f tid))) other
  by_cases hid : other = tid
  · subst hid
    rw [Function.update_self, Function.update_self]
    rfl
  · rw [Function.update_of_ne hid, Function.update_of_ne hid]

theorem recode_turn (turn : Turn) : (h.recode f).turn id (turn.recode f) = (h.turn id turn).map (recode f) := by
  unfold House.turn
  rw [entries_recode]
  cases h.entries id with
  | none => rfl
  | some e =>
    simp only [Option.bind_eq_bind, Option.map_some, Option.bind_some, HouseEntry.recode_turn]
    cases e.turn turn with
    | none => rfl
    | some e' =>
      simp only [Option.map_some, Option.bind_some]
      exact congrArg some (ext rfl (map_update ..).symm rfl (settle_recode e'.state) rfl)

theorem recode_failed (action : String) (slot : Int) (typeName : String) (message : Text) :
    (h.failed u tid action slot typeName message).recode f = (h.recode f).failed u tid action slot typeName message := by
  unfold failed
  have hset : (h.setCall tid (.ended (.raised (.writeFailed action slot)))).recode f =
      (h.recode f).setCall tid (.ended (.raised (.writeFailed action slot))) := recode_setCall _
  have hcalls := congrArg House.calls hset
  exact ext rfl rfl rfl hcalls rfl

theorem recode_service (hf : f.Fits u.digits) :
    (h.recode f).service u tid (call.recode (f tid)) = (h.service u tid call).map (recode f) := by
  unfold service
  rw [handle_recode hf]
  cases h.handle u call with
  | error error => simp only [Except.map, Option.map_some, recode_setCall, CallState.recode]
  | ok found =>
    obtain ⟨c, work⟩ := found
    cases work with
    | name slot name =>
      have hturn : (h.recode f).turn c.entryId (.setSlotName c.cid slot name) =
          (h.turn c.entryId (.setSlotName c.cid slot name)).map (recode f) :=
        recode_turn (.setSlotName c.cid slot name)
      simp only [Except.map, ServiceWork.recode, hturn]
      cases h.turn c.entryId (.setSlotName c.cid slot name) with
      | none => rfl
      | some t => simp only [Option.bind_eq_bind, Option.bind_some, Option.map_some, recode_setCall, CallState.recode]
    | write action op =>
      have hturn : (h.recode f).turn c.entryId (.call tid c.cid (op.recode (f tid))) =
          (h.turn c.entryId (.call tid c.cid op)).map (recode f) := recode_turn (.call tid c.cid op)
      simp only [Except.map, ServiceWork.recode, hturn]
      cases h.turn c.entryId (.call tid c.cid op) with
      | none => rfl
      | some t =>
        simp only [Option.bind_eq_bind, Option.map_some, Option.bind_some, entries_recode]
        cases t.entries c.entryId with
        | none => rfl
        | some e =>
          have hjob : (e.recode f).state.jobs tid = (e.state.jobs tid).recode (f tid) := rfl
          simp only [Option.map_some, Option.bind_some, hjob]
          cases hjobs : e.state.jobs tid with
          | idle => simp only [Job.recode, Option.map_some, recode_setCall, CallState.recode]
          | pin cid op stage => simp only [Job.recode, Option.map_some, recode_setCall, CallState.recode]
          | refresh cid stage => simp only [Job.recode, Option.map_some, recode_setCall, CallState.recode]
          | finished result =>
            cases result with
            | refused message => simp only [Job.recode, PinOp.slot_recode, Option.map_some, recode_failed]
            | returned outcome => simp only [Job.recode, Option.map_some, recode_setCall, CallState.recode]
            | refreshed => simp only [Job.recode, Option.map_some, recode_setCall, CallState.recode]
            | cancelled => simp only [Job.recode, Option.map_some, recode_setCall, CallState.recode]

/-- The codes that are on their way are codes. -/
def Coded (u : Unicode) (h : House) : Prop :=
  ∀ {tid id action op}, h.calls tid = some (.writing id action op) → op.Coded u.digits

theorem recode_raises (hf : f.Fits u.digits) (hcoded : h.Coded u) (typeName : String) (pieces : List Quote) :
    (h.recode f).raises u tid typeName pieces = (h.raises u tid typeName pieces).map (recode f) := by
  unfold raises
  rw [calls_recode]
  cases hcall : h.calls tid with
  | none => rfl
  | some state =>
    cases state with
    | ended how => rfl
    | dialog entryId op => rfl
    | writing entryId action op =>
      simp only [Option.map_some, CallState.recode, entries_recode]
      cases h.entries entryId with
      | none => rfl
      | some e =>
        have hjob : (e.recode f).state.jobs tid = (e.state.jobs tid).recode (f tid) := rfl
        simp only [Option.bind_eq_bind, Option.map_some, Option.bind_some, hjob]
        cases hjobs : e.state.jobs tid with
        | idle => rfl
        | refresh cid stage => rfl
        | finished result => rfl
        | pin cid op' stage =>
          cases stage with
          | acquiring => rfl
          | sending request executed =>
            have hturn : (h.recode f).turn entryId (.unwind tid) = (h.turn entryId (.unwind tid)).map (recode f) :=
              recode_turn (.unwind tid)
            simp only [Job.recode, PinStage.recode, hturn]
            cases h.turn entryId (.unwind tid) with
            | none => rfl
            | some t =>
              simp only [Option.map_some, Option.bind_some, PinOp.slot_recode]
              rw [recode_failed, failed, failed, redactDigits_quoted hf (hcoded hcall)]

theorem recode_step (hf : f.Fits u.digits) (hcoded : h.Coded u) (turn : HouseTurn) :
    (h.recode f).step u (turn.recode f) = (h.step u turn).map (recode f) := by
  cases turn with
  | added id ieee options =>
    simp only [HouseTurn.recode, step, entries_recode, Option.isNone_map]
    have hset : (h.setEntry id (.new ieee options)).recode f = (h.recode f).setEntry id (.new ieee options) :=
      recode_setEntry (.new ieee options)
    have hentries := congrArg House.entries hset.symm
    split_ifs
    · exact congrArg some (ext rfl hentries rfl rfl rfl)
    · rfl
  | readdressed id ieee =>
    simp only [HouseTurn.recode, step, entries_recode]
    cases h.entries id with
    | none => rfl
    | some e =>
      simp only [Option.bind_eq_bind, Option.map_some, Option.bind_some, recode_setEntry]
      rfl
  | loaded id =>
    simp only [HouseTurn.recode, step, entries_recode]
    cases h.entries id with
    | none => rfl
    | some e =>
      have hentry : (e.recode f).state.entry = e.state.entry := rfl
      simp only [Option.bind_eq_bind, Option.map_some, Option.bind_some, hentry]
      split_ifs
      · simp only [Option.map_some, recode_setEntry]
        rfl
      · rfl
  | unloading id =>
    simp only [HouseTurn.recode, step, entries_recode]
    cases h.entries id with
    | none => rfl
    | some e =>
      simp only [Option.bind_eq_bind, Option.map_some, Option.bind_some, recode_setEntry]
      rfl
  | device deviceId identifiers => rfl
  | entry id turn =>
    simp only [HouseTurn.recode, step]
    by_cases hcall : turn.isCall = true
    · rw [if_pos hcall, if_pos hcall]
      rfl
    · rw [if_neg hcall, if_neg hcall, ← recode_turn, Turn.recode_of_not_call (by simpa using hcall)]
  | dialog tid id cid op =>
    have hturn : (h.recode f).turn id (.call tid cid (op.recode (f tid))) =
        (h.turn id (.call tid cid op)).map (recode f) := recode_turn (.call tid cid op)
    simp only [HouseTurn.recode, step, calls_recode, Option.isNone_map, hturn]
    split_ifs
    · cases h.turn id (.call tid cid op) with
      | none => rfl
      | some t => simp only [Option.bind_eq_bind, Option.bind_some, Option.map_some, recode_setCall, CallState.recode]
    · rfl
  | service tid call =>
    simp only [HouseTurn.recode, step, calls_recode, Option.isNone_map]
    split_ifs
    · exact recode_service hf
    · rfl
  | raises tid typeName pieces => exact recode_raises hf hcoded typeName pieces

theorem coded_step (hs : h.Sound) (hcoded : h.Coded u) {turn : HouseTurn} (ht : h.step u turn = some t) :
    t.Coded u := by
  intro tid id action op hcall
  rcases writing_step hs ht hcall with hbefore | ⟨call, -, hgrants⟩
  · exact hcoded hbefore
  · obtain ⟨-, -, c, -, htakes⟩ := hgrants
    exact fun slot name code hop => ⟨_, htakes.code slot name code hop⟩

theorem recode_exec (hf : f.Fits u.digits) {turns : List HouseTurn} (hs : h.Sound) (hcoded : h.Coded u)
    (hrun : exec (House.step u) h turns = some t) :
    exec (House.step u) (h.recode f) (turns.map (HouseTurn.recode f)) = some (t.recode f) := by
  induction turns generalizing h with
  | nil => exact congrArg (Option.map (recode f)) hrun
  | cons turn turns ih =>
    obtain ⟨r, hr, hrun⟩ := exec_cons.mp hrun
    refine exec_cons.mpr ⟨r.recode f, ?_, ih (hs.step hr) (coded_step hs hcoded hr) hrun⟩
    rw [recode_step hf hcoded, hr]
    rfl

/-- What can be seen of a house without its radio: the log, what is stored, and
what becomes of each call. -/
@[ext] structure Sight where
  log : List Text
  options : String → Option Options
  ends : JobId → Option CallEnd

def sight (h : House) : Sight where
  log := h.log
  options := fun id => (h.state id).map (fun w => w.entry.options)
  ends := fun tid =>
    match h.calls tid with
    | some (.ended how) => some how
    | _ => none

theorem sight_recode : (h.recode f).sight = h.sight := by
  apply Sight.ext
  · rfl
  · funext id
    simp only [sight, state, entries_recode]
    cases h.entries id <;> rfl
  · funext tid
    simp only [sight, calls_recode]
    cases h.calls tid with
    | none => rfl
    | some state => cases state <;> rfl

/-- Nothing that can be seen of a run depends on a code, beyond whether a lock takes it. -/
theorem exec_secret (hf : f.Fits u.digits) {turns : List HouseTurn} (hrun : exec (House.step u) start turns = some h) :
    exec (House.step u) start (turns.map (HouseTurn.recode f)) = some (h.recode f) ∧ (h.recode f).sight = h.sight := by
  have hcoded : start.Coded u := fun hcall => by cases hcall
  have hrecoded := recode_exec hf sound_start hcoded hrun
  exact ⟨hrecoded, sight_recode⟩

/-- The transport fails over the code of the front door, and quotes it. -/
def quotedCodeTurns : List HouseTurn :=
  frontDoorTurns ++ [.raises 7 "ValueError" [.said (text "cannot encode pin_code="), .code]]

def otherCode : Recoding := fun _ code => if code = "56789" then "43210" else code

theorem otherCode_fits : otherCode.Fits .asciiOnly := by
  intro tid code capabilities
  unfold otherCode
  by_cases hcode : code = "56789"
  · rw [if_pos hcode, hcode]
    rfl
  · rw [if_neg hcode]

theorem exec_secret_quotedCode :
    ∃ h, exec (House.step asciiTables) start quotedCodeTurns = some h ∧
      h.log = [text "Unexpected error setting PIN on slot 5: ValueError: cannot encode pin_code=****"] ∧
      (h.recode otherCode).sight = h.sight := by
  have hrun : (exec (House.step asciiTables) start quotedCodeTurns).map House.log =
      some [text "Unexpected error setting PIN on slot 5: ValueError: cannot encode pin_code=****"] := by
    decide +kernel
  obtain ⟨h, hh, hlog⟩ := Option.map_eq_some_iff.mp hrun
  exact ⟨h, hh, hlog, (exec_secret otherCode_fits hh).2⟩

end House

end OnestiLock
