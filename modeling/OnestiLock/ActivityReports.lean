import OnestiLock.WakeEcho

/-! A listener over a sequence of attribute reports: what it fires on the event
bus, and what the activity sensor shows after them. -/

namespace OnestiLock

def attrOperationEvent : Int := 0x0100

/-- An attribute report, and what the coordinator answers while it is handled. -/
structure AttributeReport where
  attributeId : Int
  raw : Int
  wakeEchoPending : Bool
  slotName : Nat → String
  utcnow : String

/-- The data of an `onesti_lock_activity` event. -/
structure FiredActivity where
  ieee : String
  decoded : OperationEvent
  deriving DecidableEq

/-- What reports act on. `refreshes` counts the capability reads they start. -/
structure ReportListener where
  ieee : String
  sensor : Option ActivitySensor
  capabilitiesFinal : Bool
  refreshes : Nat
  fired : List FiredActivity

/-- `OnestiActivitySensor.update_activity`. -/
def ActivitySensor.showActivity (sensor : ActivitySensor) (slotName : Nat → String) (userSlot : Option Nat)
    (action : ActivityAction) (source : ActivitySource) (utcnow : String) : ActivitySensor :=
  sensor.updateActivity ⟨userSlot, userSlot.map slotName, action, source⟩ utcnow

namespace ReportListener

def scheduleCapabilityRefresh (s : ReportListener) : ReportListener :=
  if s.capabilitiesFinal then s else { s with refreshes := s.refreshes + 1 }

/-- `OnestiCoordinator.update_activity`. -/
def updateActivity (s : ReportListener) (report : AttributeReport) (userSlot : Option Nat)
    (action : ActivityAction) (source : ActivitySource) : ReportListener :=
  { s with
    sensor := s.sensor.map (fun sensor =>
      sensor.showActivity report.slotName userSlot action source report.utcnow) }

def asyncFire (s : ReportListener) (decoded : OperationEvent) : ReportListener :=
  { s with fired := s.fired ++ [⟨s.ieee, decoded⟩] }

/-- `_handle_report`. -/
def handleReport (s : ReportListener) (report : AttributeReport) : ReportListener :=
  let s := s.scheduleCapabilityRefresh
  if report.attributeId ≠ attrOperationEvent then s
  else
    match decodeOperationEvent report.slotName report.raw with
    | none => s
    | some decoded =>
      if decoded.isSystemLock report.wakeEchoPending then s.asyncFire decoded
      else (s.updateActivity report decoded.userSlot decoded.action decoded.source).asyncFire decoded

def handleReports (s : ReportListener) (reports : List AttributeReport) : ReportListener :=
  reports.foldl handleReport s

end ReportListener

/-! The law of a report: what it says, and whether the sensor shows it. -/

namespace AttributeReport

def decoded (report : AttributeReport) : Option OperationEvent :=
  if report.attributeId = attrOperationEvent then decodeOperationEvent report.slotName report.raw else none

def shown (report : AttributeReport) : Option OperationEvent :=
  report.decoded.filter (fun event => event.isSystemLock report.wakeEchoPending = false)

end AttributeReport

/-- The sensor holds the slot, the action and the source of an event. -/
def ActivitySensor.Holds (sensor : ActivitySensor) (event : OperationEvent) : Prop :=
  ∃ activity, sensor.activity = some activity ∧ activity.event.userSlot = event.userSlot ∧
    activity.event.action = event.action ∧ activity.event.source = event.source

namespace ReportListener

variable {s : ReportListener} {report : AttributeReport}

theorem scheduleCapabilityRefresh_kept (s : ReportListener) :
    s.scheduleCapabilityRefresh.ieee = s.ieee ∧ s.scheduleCapabilityRefresh.sensor = s.sensor ∧
      s.scheduleCapabilityRefresh.fired = s.fired := by
  unfold scheduleCapabilityRefresh
  split <;> simp

theorem handleReport_none (h : report.decoded = none) :
    s.handleReport report = s.scheduleCapabilityRefresh := by
  unfold handleReport
  by_cases hattr : report.attributeId = attrOperationEvent
  · have hnone : decodeOperationEvent report.slotName report.raw = none := by
      rwa [AttributeReport.decoded, if_pos hattr] at h
    simp [hattr, hnone]
  · simp [hattr]

theorem handleReport_some {event : OperationEvent} (h : report.decoded = some event) :
    s.handleReport report =
      if event.isSystemLock report.wakeEchoPending then s.scheduleCapabilityRefresh.asyncFire event
      else (s.scheduleCapabilityRefresh.updateActivity report event.userSlot event.action
        event.source).asyncFire event := by
  by_cases hattr : report.attributeId = attrOperationEvent
  · have hsome : decodeOperationEvent report.slotName report.raw = some event := by
      rwa [AttributeReport.decoded, if_pos hattr] at h
    simp [handleReport, hattr, hsome]
  · rw [AttributeReport.decoded, if_neg hattr] at h
    cases h

theorem handleReport_ieee : (s.handleReport report).ieee = s.ieee := by
  obtain ⟨hieee, -, -⟩ := scheduleCapabilityRefresh_kept s
  cases h : report.decoded with
  | none => rw [handleReport_none h, hieee]
  | some event =>
    rw [handleReport_some h]
    split <;> exact hieee

theorem handleReport_fired : (s.handleReport report).fired =
    s.fired ++ report.decoded.toList.map (fun event => ⟨s.ieee, event⟩) := by
  obtain ⟨hieee, -, hfired⟩ := scheduleCapabilityRefresh_kept s
  cases h : report.decoded with
  | none => simp [handleReport_none h, hfired]
  | some event =>
    rw [handleReport_some h]
    split <;> simp [asyncFire, updateActivity, hieee, hfired]

theorem handleReport_hidden (h : report.shown = none) : (s.handleReport report).sensor = s.sensor := by
  obtain ⟨-, hsensor, -⟩ := scheduleCapabilityRefresh_kept s
  cases hd : report.decoded with
  | none => rw [handleReport_none hd, hsensor]
  | some event =>
    have hlock : event.isSystemLock report.wakeEchoPending = true := by
      simpa [AttributeReport.shown, hd] using h
    rw [handleReport_some hd, if_pos hlock]
    exact hsensor

theorem handleReport_shown {event : OperationEvent} {sensor : ActivitySensor} (h : report.shown = some event)
    (hs : s.sensor = some sensor) : (s.handleReport report).sensor =
      some (sensor.showActivity report.slotName event.userSlot event.action event.source report.utcnow) := by
  obtain ⟨-, hsensor, -⟩ := scheduleCapabilityRefresh_kept s
  obtain ⟨hd, hlock⟩ := Option.filter_eq_some_iff.mp h
  rw [handleReport_some hd, if_neg (by simpa using hlock)]
  simp [asyncFire, updateActivity, hsensor, hs]

theorem handleReports_fired (s : ReportListener) (reports : List AttributeReport) :
    (s.handleReports reports).fired =
      s.fired ++ (reports.filterMap AttributeReport.decoded).map (fun event => ⟨s.ieee, event⟩) := by
  induction reports generalizing s with
  | nil => simp [handleReports]
  | cons report reports ih =>
    have hrest := ih (s.handleReport report)
    rw [handleReport_fired, handleReport_ieee] at hrest
    rw [handleReports, List.foldl_cons]
    refine hrest.trans ?_
    cases hd : report.decoded <;> simp [hd]

/-- The sensor shows the last report that is no system lock. -/
theorem handleReports_sensor {sensor : ActivitySensor} (hs : s.sensor = some sensor)
    (reports : List AttributeReport) : ∃ after, (s.handleReports reports).sensor = some after ∧
      ((reports.filterMap AttributeReport.shown).getLast? = none → after = sensor) ∧
      ∀ event, (reports.filterMap AttributeReport.shown).getLast? = some event → after.Holds event := by
  induction reports using List.reverseRecOn with
  | nil => exact ⟨sensor, hs, fun _ => rfl, by simp⟩
  | append_singleton reports report ih =>
    obtain ⟨before, hbefore, hnone, hsome⟩ := ih
    have hstep : s.handleReports (reports ++ [report]) = (s.handleReports reports).handleReport report := by
      rw [handleReports, List.foldl_append]
      rfl
    rw [hstep, List.filterMap_append]
    cases h : report.shown with
    | none =>
      have hsame : reports.filterMap AttributeReport.shown ++
          [report].filterMap AttributeReport.shown = reports.filterMap AttributeReport.shown := by simp [h]
      rw [hsame]
      exact ⟨before, (handleReport_hidden h).trans hbefore, hnone, hsome⟩
    | some event =>
      refine ⟨_, handleReport_shown h hbefore, ?_⟩
      have hlast : (reports.filterMap AttributeReport.shown ++
          [report].filterMap AttributeReport.shown).getLast? = some event := by simp [h]
      rw [hlast]
      refine ⟨by simp, ?_⟩
      intro last hlast
      obtain rfl := Option.some.inj hlast
      exact ⟨_, rfl, rfl, rfl, rfl⟩

end ReportListener

/-! The fields of the bitmap. -/

theorem decodeOperationEvent_packed (slotName : Nat → String) {slot action source : Nat}
    (hslot : slot < 2 ^ 16) (haction : action < 2 ^ 8) (hsource : source < 2 ^ 8) :
    ∃ event, decodeOperationEvent slotName ((slot + 2 ^ 16 * action + 2 ^ 24 * source : Nat) : Int) = some event ∧
      event.action = ActivityAction.ofByte action ∧ event.source = ActivitySource.ofByte source ∧
      event.userSlot =
        if slot = 0 ∧ (ActivitySource.ofByte source).credential = false then none else some slot := by
  have hrange : (0 : Int) ≤ ((slot + 2 ^ 16 * action + 2 ^ 24 * source : Nat) : Int) ∧
      ((slot + 2 ^ 16 * action + 2 ^ 24 * source : Nat) : Int) ≤ operationEventMax := by
    simp only [operationEventMax]
    omega
  have hbits (n k : Nat) : n &&& (2 ^ k - 1) = n % 2 ^ k := Nat.and_two_pow_sub_one_eq_mod n k
  have hlow : (slot + 2 ^ 16 * action + 2 ^ 24 * source) &&& 0xFFFF = slot := by
    rw [show (0xFFFF : Nat) = 2 ^ 16 - 1 by rfl, hbits]
    omega
  have hmiddle : ((slot + 2 ^ 16 * action + 2 ^ 24 * source) >>> 16) &&& 0xFF = action := by
    rw [show (0xFF : Nat) = 2 ^ 8 - 1 by rfl, hbits, Nat.shiftRight_eq_div_pow]
    omega
  have hhigh : ((slot + 2 ^ 16 * action + 2 ^ 24 * source) >>> 24) &&& 0xFF = source := by
    rw [show (0xFF : Nat) = 2 ^ 8 - 1 by rfl, hbits, Nat.shiftRight_eq_div_pow]
    omega
  refine ⟨_, if_pos hrange, ?_⟩
  simp only [Int.toNat_natCast, hlow, hmiddle, hhigh, and_self]

theorem decodeOperationEvent_outside (slotName : Nat → String) {val : Int} (h : val < 0 ∨ 2 ^ 32 ≤ val) :
    decodeOperationEvent slotName val = none := by
  refine if_neg ?_
  simp only [operationEventMax]
  omega

theorem OperationEvent.isSystemLock_spares {event : OperationEvent} {pending : Bool}
    (h : event.isSystemLock pending = true) :
    (event.action = .unlock → event.source = .auto) ∧ event.source.credential = false := by
  cases hsource : event.source <;>
    simp_all [isSystemLock, anonymousLock, ActivitySource.credential]

/-- Operation events are decoded, fired and shown by one law. -/
theorem operation_events :
    (∀ (slotName : Nat → String) (slot action source : Nat), slot < 2 ^ 16 → action < 2 ^ 8 → source < 2 ^ 8 →
      ∃ event, decodeOperationEvent slotName ((slot + 2 ^ 16 * action + 2 ^ 24 * source : Nat) : Int) =
          some event ∧
        event.action = ActivityAction.ofByte action ∧ event.source = ActivitySource.ofByte source ∧
        event.userSlot =
          if slot = 0 ∧ (ActivitySource.ofByte source).credential = false then none else some slot) ∧
    (∀ (slotName : Nat → String) (val : Int), val < 0 ∨ 2 ^ 32 ≤ val →
      decodeOperationEvent slotName val = none) ∧
    (∀ (s : ReportListener) (reports : List AttributeReport), (s.handleReports reports).fired =
      s.fired ++ (reports.filterMap AttributeReport.decoded).map (fun event => ⟨s.ieee, event⟩)) ∧
    (∀ (s : ReportListener) (sensor : ActivitySensor) (reports : List AttributeReport), s.sensor = some sensor →
      ∃ after, (s.handleReports reports).sensor = some after ∧
        ((reports.filterMap AttributeReport.shown).getLast? = none → after = sensor) ∧
        ∀ event, (reports.filterMap AttributeReport.shown).getLast? = some event → after.Holds event) ∧
    ∀ (event : OperationEvent) (pending : Bool), event.isSystemLock pending = true →
      (event.action = .unlock → event.source = .auto) ∧ event.source.credential = false := by
  refine ⟨?_, ?_, ReportListener.handleReports_fired, ?_, ?_⟩
  · intro slotName slot action source hslot haction hsource
    exact decodeOperationEvent_packed slotName hslot haction hsource
  · intro slotName val h
    exact decodeOperationEvent_outside slotName h
  · intro s sensor reports hs
    exact ReportListener.handleReports_sensor hs reports
  · intro event pending h
    exact OperationEvent.isSystemLock_spares h

/-- The master user unlocks at the keypad. -/
example : decodeOperationEvent (fun _ => "Kari") 0x02020000 = some ⟨some 0, some "Kari", .unlock, .keypad⟩ := by
  decide

end OnestiLock
