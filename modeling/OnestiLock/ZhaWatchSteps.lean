import OnestiLock.ZhaWatch

/-! What each operation of the ZHA watch does to the state, the log lines apart
from their order. -/

namespace OnestiLock

open Python

namespace Watch

/-- The losses and returns of lock events among the lines of a log, a loss as `true`. -/
def lossLines (log : List LogLine) : List Bool :=
  log.filterMap (fun
    | .stopped _ => some true
    | .arrivingAgain _ => some false
    | _ => none)

/-- The coordinators a report of the cluster is handed to. -/
def hearers (live : List Registration) (cluster : ZhaCluster) : List Nat :=
  live.filterMap (fun
    | .report heard c => if heard = cluster then some c else none
    | _ => none)

variable {lower : Text → Text} {s t : Hass} {c : Nat}

@[simp] theorem lossLines_append (log lines : List LogLine) :
    lossLines (log ++ lines) = lossLines log ++ lossLines lines := by
  simp [lossLines]

@[simp] theorem hearers_append (live more : List Registration) (cluster : ZhaCluster) :
    hearers (live ++ more) cluster = hearers live cluster ++ hearers more cluster := by
  simp [hearers]

@[simp] theorem hearers_report (heard cluster : ZhaCluster) (c : Nat) :
    hearers [.report heard c] cluster = if heard = cluster then [c] else [] := by
  by_cases h : heard = cluster <;> simp [hearers, h]

@[simp] theorem hearers_issue (detail : Text) (cluster : ZhaCluster) : hearers [.issue detail] cluster = [] := rfl

/-- The registrations but the repair issue. -/
def withoutIssue (live : List Registration) : List Registration :=
  live.filter (fun r => Registration.key r ≠ .issue [])

@[simp] theorem mem_withoutIssue {live : List Registration} {r : Registration} :
    r ∈ withoutIssue live ↔ r ∈ live ∧ r.key ≠ .issue [] := by
  simp [withoutIssue]

@[simp] theorem hearers_withoutIssue (live : List Registration) (cluster : ZhaCluster) :
    hearers (withoutIssue live) cluster = hearers live cluster := by
  simp only [withoutIssue, hearers, List.filterMap_filter]
  congr 1
  funext r
  cases r <;> simp [Registration.key]

/-! What each operation changes. -/

namespace Hass

theorem setAvailable_eq (c : Nat) (available quiet : Bool) (s : Hass) :
    ∃ lines, s.setAvailable c available quiet =
        { s with
          coordinators := Function.update s.coordinators c { s.monitor c with available := available }
          lossLogged := if quiet then s.lossLogged else !available
          log := s.log ++ lines } ∧
      lossLines lines = if quiet = true ∨ s.lossLogged = !available then [] else [!available] := by
  obtain ⟨lines, hlines⟩ : ∃ lines, lines = (s.setAvailable c available quiet).log.drop s.log.length :=
    ⟨_, rfl⟩
  refine ⟨lines, ?_⟩
  by_cases hchanged : available = (s.monitor c).available <;> cases quiet <;> cases available <;>
    cases hlogged : s.lossLogged <;>
    simp_all [setAvailable, logAvailability, write, setMonitor, lossLines]

section

variable (c : Nat) (available quiet : Bool) (s : Hass)

@[simp] theorem monitor_setAvailable :
    (s.setAvailable c available quiet).monitor c = { s.monitor c with available := available } := by
  obtain ⟨lines, heq, -⟩ := setAvailable_eq c available quiet s
  rw [heq]
  exact Function.update_self ..

@[simp] theorem zhaEntries_setAvailable : (s.setAvailable c available quiet).zhaEntries = s.zhaEntries := by
  obtain ⟨lines, heq, -⟩ := setAvailable_eq c available quiet s
  rw [heq]

@[simp] theorem scope_setAvailable : (s.setAvailable c available quiet).scope = s.scope := by
  obtain ⟨lines, heq, -⟩ := setAvailable_eq c available quiet s
  rw [heq]

@[simp] theorem stage_setAvailable : (s.setAvailable c available quiet).stage = s.stage := by
  obtain ⟨lines, heq, -⟩ := setAvailable_eq c available quiet s
  rw [heq]

@[simp] theorem gateway_setAvailable : (s.setAvailable c available quiet).gateway = s.gateway := by
  obtain ⟨lines, heq, -⟩ := setAvailable_eq c available quiet s
  rw [heq]

@[simp] theorem lossLogged_setAvailable :
    (s.setAvailable c available quiet).lossLogged = if quiet then s.lossLogged else !available := by
  obtain ⟨lines, heq, -⟩ := setAvailable_eq c available quiet s
  rw [heq]

end

theorem setListenedCluster_eq (c : Nat) (cluster : ZhaCluster) (s : Hass) :
    ∃ lines, s.setListenedCluster c cluster =
        { s with
          coordinators := Function.update s.coordinators c
            { s.monitor c with listenedCluster := some cluster, available := true }
          lossLogged := false
          log := s.log ++ lines } ∧
      lossLines lines = if s.lossLogged then [false] else [] := by
  obtain ⟨lines, heq, hlines⟩ := setAvailable_eq c true false
    (s.setMonitor c { s.monitor c with listenedCluster := some cluster })
  refine ⟨lines, ?_, ?_⟩
  · rw [setListenedCluster, heq]
    simp [setMonitor, monitor]
  · rw [hlines]
    cases hlogged : s.lossLogged <;> simp [setMonitor, hlogged]

/-- The state once the listener is registered on a cluster. -/
def listening (s : Hass) (c : Nat) (cluster : ZhaCluster) (lines : List LogLine) : Hass :=
  { s with
    coordinators := Function.update s.coordinators c
      { s.monitor c with listenedCluster := some cluster, available := true }
    lossLogged := false
    log := s.log ++ lines
    scope := (((s.scope.register (.report cluster c)).onClose (.report cluster c)).release
      Registration.key (.issue [])).onClose (.issue []) }

/-- The state once the repair issue stands in its place. -/
def missing (s : Hass) (c : Nat) (detail : Text) (lines : List LogLine) : Hass :=
  { s with
    coordinators := Function.update s.coordinators c { s.monitor c with available := false }
    log := s.log ++ lines
    scope := ((s.scope.release Registration.key (.issue [])).register (.issue detail)).onClose (.issue []) }

@[simp] theorem live_listening (c : Nat) (cluster : ZhaCluster) (lines : List LogLine) (s : Hass) :
    (s.listening c cluster lines).scope.live = withoutIssue (s.scope.live ++ [.report cluster c]) := rfl

@[simp] theorem monitor_listening (c : Nat) (cluster : ZhaCluster) (lines : List LogLine) (s : Hass) :
    (s.listening c cluster lines).monitor c =
      { s.monitor c with listenedCluster := some cluster, available := true } := Function.update_self ..

@[simp] theorem live_missing (c : Nat) (detail : Text) (lines : List LogLine) (s : Hass) :
    (s.missing c detail lines).scope.live = withoutIssue s.scope.live ++ [.issue detail] := rfl

@[simp] theorem monitor_missing (c : Nat) (detail : Text) (lines : List LogLine) (s : Hass) :
    (s.missing c detail lines).monitor c = { s.monitor c with available := false } := Function.update_self ..

theorem reportMissing_eq (c : Nat) (detail : Text) (s : Hass) :
    ∃ issue lines, s.reportMissing c detail =
        { s with
          coordinators := Function.update s.coordinators c { s.monitor c with available := false }
          log := s.log ++ lines
          scope := (s.scope.release Registration.key (.issue [])).register (.issue issue) } ∧
      lossLines lines = [] := by
  let issue := if s.gateway.isSome then detail else text "ZHA gateway (get_zha_gateway_proxy)"
  let line := LogLine.internalsMissing (s.monitor c).ieee issue
  let r : Hass := { s.write line with
    scope := (s.scope.release Registration.key (.issue [])).register (.issue issue) }
  obtain ⟨lines, heq, hlines⟩ := setAvailable_eq c false true r
  refine ⟨issue, line :: lines, ?_, ?_⟩
  · calc s.reportMissing c detail = r.setAvailable c false true := rfl
      _ = _ := heq
      _ = _ := by simp [r, write, monitor]
  · simpa [lossLines, line] using hlines

theorem startEventListener_cases (lower : Text → Text) (c : Nat) (s : Hass) :
    (∃ cluster lines, s.cluster lower c = some cluster ∧
      s.startEventListener lower c = s.listening c cluster lines ∧
      lossLines lines = if s.lossLogged then [false] else []) ∨
    ∃ detail lines, s.startEventListener lower c = s.missing c detail lines ∧ lossLines lines = [] := by
  cases hcluster : s.cluster lower c with
  | none =>
    right
    obtain ⟨line, hline, hloss⟩ : ∃ line, s.logMissingCluster c = s.write line ∧ lossLines [line] = [] := by
      unfold logMissingCluster
      split
      · exact ⟨_, rfl, rfl⟩
      · exact ⟨_, rfl, rfl⟩
    obtain ⟨detail, lines, heq, hlines⟩ := reportMissing_eq c
      (text "Door Lock cluster for " ++ (s.monitor c).ieee) (s.write line)
    refine ⟨detail, line :: lines, ?_, ?_⟩
    · simp only [startEventListener, registerEventListener, hcluster, hline]
      rw [heq]
      simp only [missing, write, monitor, List.append_assoc, List.singleton_append]
    · rw [show line :: lines = [line] ++ lines from rfl, lossLines_append, hloss, hlines]
      rfl
  | some cluster =>
    by_cases hhook : (cluster.onEvent || (cluster.addListener && cluster.removeListener)) = true
    · left
      obtain ⟨lines, heq, hlines⟩ := setListenedCluster_eq c cluster
        { s with scope := s.scope.register (.report cluster c) }
      refine ⟨cluster, lines, rfl, ?_, hlines⟩
      simp only [startEventListener, registerEventListener, hcluster, subscribe, if_pos hhook, heq]
      rfl
    · right
      obtain ⟨detail, lines, heq, hlines⟩ := reportMissing_eq c
        (cluster.typeName ++ text ".on_event, and no add_listener/remove_listener either") s
      refine ⟨detail, lines, ?_, hlines⟩
      simp only [startEventListener, registerEventListener, hcluster, subscribe, hhook, Bool.false_eq_true, if_false]
      rw [heq]
      rfl

theorem foldl_enter (rs : List Registration) (s : Hass) :
    rs.foldl Hass.enter s = { s with scope := rs.foldl (Scope.enter Registration.key) s.scope } := by
  induction rs generalizing s with
  | nil => rfl
  | cons r rs ih => exact ih _

/-- What a setup registers before it looks for the cluster. -/
def watches (s : Hass) (c : Nat) : List Registration :=
  s.zhaEntries.map (fun entry => .stateChange entry.1 c) ++ [.entryChanged c, .updateListener]

theorem watchZhaEntries_eq (s : Hass) (c : Nat) :
    (s.watchZhaEntries c).enter .updateListener =
      { s with scope := (s.watches c).foldl (Scope.enter Registration.key) s.scope } := by
  rw [← foldl_enter, watches, List.foldl_append, List.foldl_map]
  unfold watchZhaEntries
  rw [List.foldl_map]
  rfl

theorem onZhaStateChange_cases (lower : Text → Text) (c : Nat) (state : ConfigEntryState) (s : Hass) :
    s.onZhaStateChange lower c state = s ∧ (s.stage.isLoaded = false ∨ state ≠ .loaded ∧ s.zhaEntryLoaded = true) ∨
    s.onZhaStateChange lower c state = s.setAvailable c false false ∧ state ≠ .loaded ∧ s.zhaEntryLoaded = false ∨
    s.onZhaStateChange lower c state = s.scheduleReload ∧ state = .loaded ∨
    ∃ cluster, s.onZhaStateChange lower c state = s.setAvailable c true false ∧ state = .loaded ∧
      (s.monitor c).listenedCluster = some cluster ∧ s.cluster lower c = some cluster := by
  unfold onZhaStateChange
  split
  case isTrue hstage => exact Or.inl ⟨rfl, Or.inl hstage⟩
  case isFalse hstage =>
    by_cases hstate : state = .loaded
    · rw [if_neg (fun hne => hne hstate)]
      right
      right
      cases hlistened : (s.monitor c).listenedCluster with
      | none => exact Or.inl ⟨rfl, hstate⟩
      | some cluster =>
        by_cases hcluster : s.cluster lower c = some cluster
        · exact Or.inr ⟨cluster, if_pos hcluster, hstate, rfl, hcluster⟩
        · exact Or.inl ⟨if_neg hcluster, hstate⟩
    · rw [if_pos hstate]
      cases hloaded : s.zhaEntryLoaded with
      | true => exact Or.inl ⟨rfl, Or.inr ⟨hstate, rfl⟩⟩
      | false => exact Or.inr (Or.inl ⟨rfl, hstate, rfl⟩)

end Hass

end Watch

end OnestiLock
