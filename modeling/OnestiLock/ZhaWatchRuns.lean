import OnestiLock.ZhaWatchSteps

/-! What an entry has registered across every order of ZHA's and Home
Assistant's steps, and who hears a report. -/

namespace OnestiLock

open Python

namespace Watch

variable {lower : Text → Text} {s t : Hass} {c : Nat}

/-! The registrations. -/

def Registration.isWatch : Registration → Bool
  | stateChange _ _ | entryChanged _ | updateListener => true
  | _ => false

/-- Every ZHA entry is watched, and every watch acts on the one coordinator. -/
structure Wires (entries : List (Nat × ConfigEntryState)) (live : List Registration) (c : Nat) : Prop where
  watched : ∀ entry ∈ entries, .stateChange entry.1 c ∈ live
  added : .entryChanged c ∈ live
  updates : .updateListener ∈ live
  own : ∀ zhaEntry d, .stateChange zhaEntry d ∈ live → d = c
  ownAdded : ∀ d, .entryChanged d ∈ live → d = c

theorem Wires.congr {entries entries' : List (Nat × ConfigEntryState)} {live live' : List Registration}
    (h : Wires entries live c) (hentries : ∀ entry ∈ entries', entry.1 ∈ entries.map Prod.fst)
    (hlive : ∀ r, r.isWatch = true → (r ∈ live' ↔ r ∈ live)) : Wires entries' live' c := by
  constructor
  · intro entry hentry
    obtain ⟨old, hold, he⟩ := List.mem_map.mp (hentries entry hentry)
    rw [hlive _ rfl, ← he]
    exact h.watched old hold
  · exact (hlive _ rfl).mpr h.added
  · exact (hlive _ rfl).mpr h.updates
  · intro zhaEntry d hd
    exact h.own zhaEntry d ((hlive _ rfl).mp hd)
  · intro d hd
    exact h.ownAdded d ((hlive _ rfl).mp hd)

/-- Reports of the listened cluster reach the coordinator, once each; the
entities and the log agree about it, unless a repair issue says why not. -/
structure Voiced (m : Monitor) (c : Nat) (lossLogged : Bool) (live : List Registration) : Prop where
  heard : ∀ cluster, hearers live cluster = if m.listenedCluster = some cluster then [c] else []
  issue : ∀ detail, .issue detail ∈ live → m.listenedCluster = none
  hears : m.available = true → m.listenedCluster ≠ none
  returned : m.available = true → lossLogged = false
  explained : m.available = false → lossLogged = true ∨ ∃ detail, .issue detail ∈ live

theorem Voiced.told {m : Monitor} {lossLogged : Bool} {live : List Registration}
    (h : Voiced m c lossLogged live) {available : Bool}
    (hlistens : available = true → m.listenedCluster ≠ none) :
    Voiced { m with available := available } c (!available) live where
  heard := h.heard
  issue := h.issue
  hears := hlistens
  returned := by simp
  explained := fun h => Or.inl (by rw [show available = false from h]; rfl)

structure Serving (s : Hass) (c : Nat) : Prop where
  wires : Wires s.zhaEntries s.scope.live c
  voiced : Voiced (s.monitor c) c s.lossLogged s.scope.live

theorem Serving.congr (h : Serving s c) (hz : ∀ entry ∈ t.zhaEntries, entry.1 ∈ s.zhaEntries.map Prod.fst)
    (hscope : t.scope = s.scope) (hm : t.monitor c = s.monitor c) (hl : t.lossLogged = s.lossLogged) :
    Serving t c := by
  constructor
  · rw [hscope]
    exact h.wires.congr hz (fun _ _ => Iff.rfl)
  · rw [hscope, hm, hl]
    exact h.voiced

theorem Serving.setAvailable (h : Serving s c) {available : Bool}
    (hlistens : available = true → (s.monitor c).listenedCluster ≠ none) :
    Serving (s.setAvailable c available false) c := by
  constructor
  · simpa using h.wires
  · simpa using h.voiced.told hlistens

theorem Serving.onZhaStateChange (h : Serving s c) (state : ConfigEntryState) :
    Serving (s.onZhaStateChange lower c state) c := by
  rcases Hass.onZhaStateChange_cases lower c state s with ⟨heq, -⟩ | ⟨heq, -⟩ | ⟨heq, -⟩ | ⟨cluster, heq, -, hlistened, -⟩
  · rw [heq]
    exact h
  · rw [heq]
    exact h.setAvailable (by simp)
  · rw [heq]
    exact h.congr (fun entry hentry => List.mem_map_of_mem hentry) rfl rfl rfl
  · rw [heq]
    exact h.setAvailable (by simp [hlistened])

/-- A setup that is about to look for the cluster: nothing is heard, no issue stands. -/
structure Prepared (s : Hass) (c : Nat) : Prop where
  wires : Wires s.zhaEntries s.scope.live c
  silent : ∀ cluster, hearers s.scope.live cluster = []
  issueless : ∀ detail, .issue detail ∉ s.scope.live
  deaf : (s.monitor c).listenedCluster = none

theorem prepared_watchZhaEntries (hscope : s.scope = Scope.empty) (hm : (s.monitor c).listenedCluster = none) :
    Prepared ((s.watchZhaEntries c).enter .updateListener) c := by
  rw [Hass.watchZhaEntries_eq]
  have hlive : ((s.watches c).foldl (Scope.enter Registration.key) s.scope).live = s.watches c := by
    rw [Scope.live_foldl_enter, hscope]
    rfl
  constructor
  · rw [hlive]
    constructor
    · exact fun entry hentry => List.mem_append_left _ (List.mem_map_of_mem hentry)
    all_goals simp [Hass.watches]
  · rw [hlive]
    simp [Hass.watches, hearers]
  · rw [hlive]
    simp [Hass.watches]
  · exact hm

theorem Prepared.setAvailable (h : Prepared s c) : Serving (s.setAvailable c false false) c := by
  constructor
  · simpa using h.wires
  · simp only [Hass.monitor_setAvailable, Hass.lossLogged_setAvailable, Hass.scope_setAvailable]
    constructor
    · simpa [h.deaf] using h.silent
    · simp [h.issueless]
    all_goals simp

theorem Prepared.startEventListener (h : Prepared s c) : Serving (s.startEventListener lower c) c := by
  rcases Hass.startEventListener_cases lower c s with ⟨cluster, lines, -, heq, -⟩ | ⟨detail, lines, heq, -⟩
  · rw [heq]
    constructor
    · refine h.wires.congr (fun entry hentry => List.mem_map_of_mem hentry) ?_
      intro r hr
      cases r <;> simp_all [Registration.isWatch, Registration.key]
    · rw [Hass.live_listening, Hass.monitor_listening]
      constructor
      · intro heard
        simp [h.silent]
      · simp [Registration.key]
      · simp
      · exact fun _ => rfl
      · simp
  · rw [heq]
    constructor
    · refine h.wires.congr (fun entry hentry => List.mem_map_of_mem hentry) ?_
      intro r hr
      cases r <;> simp_all [Registration.isWatch, Registration.key]
    · rw [Hass.live_missing, Hass.monitor_missing]
      constructor
      · intro heard
        simp [h.silent, h.deaf]
      · simp [h.deaf]
      · simp
      · simp
      · intro _
        exact Or.inr ⟨detail, by simp⟩

/-! The run lemma. -/

/-- The coordinator of a setup that has not come to the cluster. -/
def Stage.preparing (c : Nat) (stage : Stage) : Prop := stage = .readingStrings c ∨ stage = .forwardingSetups c

structure Wired (s : Hass) : Prop where
  covered : s.scope.Covered Registration.key
  idle : s.stage.holder = none → s.scope = Scope.empty
  fresh : ∀ c, s.stage.preparing c → (s.monitor c).listenedCluster = none
  serving : ∀ c, s.stage.holder = some c → Serving s c

theorem wired_of_empty (hscope : s.scope = Scope.empty) (hidle : s.stage.holder = none)
    (hfresh : ∀ c, s.stage.preparing c → (s.monitor c).listenedCluster = none) : Wired s where
  covered := hscope ▸ Scope.covered_empty
  idle := fun _ => hscope
  fresh := hfresh
  serving := by simp [hidle]

theorem Starting.wired (h : Starting s) : Wired s := by
  apply wired_of_empty h.scope
  · simp [h.stage, Stage.holder]
  · simp [h.stage, Stage.preparing]

theorem Wired.congr (h : Wired s) (hz : ∀ entry ∈ t.zhaEntries, entry.1 ∈ s.zhaEntries.map Prod.fst)
    (hscope : t.scope = s.scope) (hm : t.coordinators = s.coordinators) (hl : t.lossLogged = s.lossLogged)
    (hholder : t.stage.holder = s.stage.holder) (hfresh : ∀ c, t.stage.preparing c → s.stage.preparing c) :
    Wired t where
  covered := hscope ▸ h.covered
  idle := by
    rw [hholder, hscope]
    exact h.idle
  fresh := by
    intro c hc
    rw [Hass.monitor, hm]
    exact h.fresh c (hfresh c hc)
  serving := by
    intro c hc
    refine (h.serving c (hholder ▸ hc)).congr hz hscope ?_ hl
    rw [Hass.monitor, hm, Hass.monitor]

theorem mem_own (entries : List (Nat × ConfigEntryState)) :
    ∀ entry ∈ entries, entry.1 ∈ entries.map Prod.fst := fun _ hentry => List.mem_map_of_mem hentry

theorem Hass.setup_idle (hs : s.setup lower = some t) :
    s.stage.holder = none ∧ t = s.asyncSetupEntry lower := by
  unfold Hass.setup at hs
  cases hstage : s.stage <;> simp_all [Stage.holder]

theorem Wired.setup (h : Wired s) (hs : s.setup lower = some t) : Wired t := by
  obtain ⟨hidle, rfl⟩ := Hass.setup_idle hs
  unfold Hass.asyncSetupEntry
  split
  · exact wired_of_empty (h.idle hidle) rfl (by simp [Stage.preparing])
  · apply wired_of_empty
    · exact h.idle hidle
    · rfl
    · intro c hc
      have hc : s.nextCoordinator = c := by simpa [Stage.preparing] using hc
      subst hc
      simp [Hass.monitor, Hass.newMonitor]

theorem Wired.unload (h : Wired s) {shown : Bool} (hs : s.unload shown = some t) : Wired t := by
  unfold Hass.unload at hs
  split at hs
  case h_1 c hstage =>
    cases hs
    exact h.congr (mem_own _) rfl rfl rfl (by rw [hstage]; rfl) (by simp [Stage.preparing])
  case h_2 hstage =>
    cases hs
    exact h.congr (mem_own _) rfl rfl rfl (by rw [hstage]; rfl) (by simp [Stage.preparing])
  case h_3 hstage =>
    cases hs
    exact h.congr (mem_own _) rfl rfl rfl (by rw [hstage]; rfl) (by simp [Stage.preparing])
  case h_4 => cases hs

theorem covered_startEventListener (h : s.scope.Covered Registration.key) :
    (s.startEventListener lower c).scope.Covered Registration.key := by
  rcases Hass.startEventListener_cases lower c s with ⟨cluster, lines, -, heq, -⟩ | ⟨detail, lines, heq, -⟩
  · rw [heq]
    exact ((h.enter (.report cluster c)).release _).onClose _
  · rw [heq]
    exact (h.release _).enter (.issue detail)

theorem holder_finishSetup (c : Nat) : (s.finishSetup lower c).stage = .loaded c := rfl

theorem Wired.finishSetup (h : Wired s) (hs : s.stage = .forwardingSetups c) : Wired (s.finishSetup lower c) := by
  have hscope : s.scope = Scope.empty := h.idle (by rw [hs]; rfl)
  have hdeaf : (s.monitor c).listenedCluster = none := h.fresh c (Or.inr hs)
  have hprepared := prepared_watchZhaEntries hscope hdeaf
  have hcovered : ((s.watchZhaEntries c).enter .updateListener).scope.Covered Registration.key := by
    rw [Hass.watchZhaEntries_eq, hscope]
    exact Scope.covered_empty.foldl_enter _
  constructor
  · unfold Hass.finishSetup
    dsimp only
    split
    · rw [Hass.scope_setAvailable]
      exact hcovered
    · exact covered_startEventListener hcovered
  · simp [holder_finishSetup, Stage.holder]
  · simp [holder_finishSetup, Stage.preparing]
  · intro d hd
    have hd : c = d := by simpa [holder_finishSetup, Stage.holder] using hd
    subst hd
    unfold Hass.finishSetup
    dsimp only
    split
    · exact hprepared.setAvailable.congr (mem_own _) rfl rfl rfl
    · exact hprepared.startEventListener.congr (mem_own _) rfl rfl rfl

/-- The callbacks of a ZHA entry that changed its state. -/
theorem Serving.foldl_onZhaStateChange (h : Serving s c) (state : ConfigEntryState) (ds : List Nat)
    (hds : ∀ d ∈ ds, d = c) : Serving (ds.foldl (fun s d => s.onZhaStateChange lower d state) s) c := by
  induction ds generalizing s with
  | nil => exact h
  | cons d ds ih =>
    rw [hds d List.mem_cons_self]
    exact ih (h.onZhaStateChange state) (fun e he => hds e (List.mem_cons_of_mem _ he))

/-- A callback leaves the registrations, the entry and ZHA as they are. -/
theorem onZhaStateChange_kept (lower : Text → Text) (c : Nat) (state : ConfigEntryState) (s : Hass) :
    (s.onZhaStateChange lower c state).scope = s.scope ∧
      (s.onZhaStateChange lower c state).stage = s.stage ∧
      (s.onZhaStateChange lower c state).zhaEntries = s.zhaEntries := by
  rcases Hass.onZhaStateChange_cases lower c state s with ⟨heq, -⟩ | ⟨heq, -⟩ | ⟨heq, -⟩ | ⟨cluster, heq, -⟩
  · simp [heq]
  · simp [heq]
  · simp [heq, Hass.scheduleReload]
  · simp [heq]

theorem foldl_onZhaStateChange_kept (lower : Text → Text) (state : ConfigEntryState) (ds : List Nat) (s : Hass) :
    (ds.foldl (fun s d => s.onZhaStateChange lower d state) s).scope = s.scope ∧
      (ds.foldl (fun s d => s.onZhaStateChange lower d state) s).stage = s.stage ∧
      (ds.foldl (fun s d => s.onZhaStateChange lower d state) s).zhaEntries = s.zhaEntries := by
  induction ds generalizing s with
  | nil => exact ⟨rfl, rfl, rfl⟩
  | cons d ds ih =>
    obtain ⟨hscope, hstage, hz⟩ := onZhaStateChange_kept lower d state s
    obtain ⟨hscope', hstage', hz'⟩ := ih (s.onZhaStateChange lower d state)
    exact ⟨hscope'.trans hscope, hstage'.trans hstage, hz'.trans hz⟩

theorem mem_watchers {zhaEntry d : Nat} :
    d ∈ s.watchers zhaEntry ↔ .stateChange zhaEntry d ∈ s.scope.live := by
  simp only [Hass.watchers, List.mem_filterMap]
  constructor
  · rintro ⟨r, hr, hd⟩
    cases r <;> simp at hd
    obtain ⟨rfl, rfl⟩ := hd
    exact hr
  · intro hr
    exact ⟨_, hr, by simp⟩

theorem mem_addedWatchers {d : Nat} : d ∈ s.addedWatchers ↔ .entryChanged d ∈ s.scope.live := by
  simp only [Hass.addedWatchers, List.mem_filterMap]
  constructor
  · rintro ⟨r, hr, hd⟩
    cases r <;> simp at hd
    subst hd
    exact hr
  · intro hr
    exact ⟨_, hr, rfl⟩

theorem Wired.zhaState (h : Wired s) (zhaEntry : Nat) (state : ConfigEntryState) :
    Wired ((s.watchers zhaEntry).foldl (fun s c => s.onZhaStateChange lower c state) s) := by
  obtain ⟨hscope, hstage, -⟩ := foldl_onZhaStateChange_kept lower state (s.watchers zhaEntry) s
  cases hholder : s.stage.holder with
  | none =>
    have hnobody : s.watchers zhaEntry = [] := by
      rw [Hass.watchers, h.idle hholder]
      rfl
    rw [hnobody]
    exact h
  | some c =>
    have hserving := h.serving c hholder
    have hown : ∀ d ∈ s.watchers zhaEntry, d = c := fun d hd => hserving.wires.own zhaEntry d (mem_watchers.mp hd)
    constructor
    · rw [hscope]
      exact h.covered
    · simp [hstage, hholder]
    · intro d hd
      rw [hstage] at hd
      rcases hd with hd | hd <;> simp [hd, Stage.holder] at hholder
    · intro d hd
      rw [hstage, hholder] at hd
      cases hd
      exact hserving.foldl_onZhaStateChange state _ hown

/-- The watches a new ZHA entry gets. -/
theorem foldl_watch_eq (zhaEntry : Nat) (ds : List Nat) (s : Hass) :
    ds.foldl (fun s d => s.watch d zhaEntry) s =
      { s with scope :=
          (ds.map (.stateChange zhaEntry)).foldl (Scope.enter Registration.key) s.scope } := by
  rw [← Hass.foldl_enter, List.foldl_map]
  rfl

theorem Voiced.append {m : Monitor} {lossLogged : Bool} {live : List Registration}
    (h : Voiced m c lossLogged live) (zhaEntry : Nat) (ds : List Nat) :
    Voiced m c lossLogged (live ++ ds.map (.stateChange zhaEntry)) := by
  have hsilent : ∀ cluster, hearers (ds.map (Registration.stateChange zhaEntry)) cluster = [] := by
    intro cluster
    simp [hearers]
  constructor
  · intro cluster
    rw [hearers_append, hsilent, List.append_nil]
    exact h.heard cluster
  · simpa using h.issue
  · exact h.hears
  · exact h.returned
  · simpa using h.explained

theorem Wired.zhaAdded (h : Wired s) (zhaEntry : Nat)
    (ht : t = { s with zhaEntries := s.zhaEntries ++ [(zhaEntry, ConfigEntryState.notLoaded)],
                       nextZhaEntry := zhaEntry + 1 }) :
    Wired (t.addedWatchers.foldl (fun s c => s.watch c zhaEntry) t) := by
  have hadded : t.addedWatchers = s.addedWatchers := by
    rw [ht]
    rfl
  rw [foldl_watch_eq, hadded]
  subst ht
  cases hholder : s.stage.holder with
  | none =>
    have hnobody : s.addedWatchers = [] := by
      rw [Hass.addedWatchers, h.idle hholder]
      rfl
    rw [hnobody]
    exact wired_of_empty (h.idle hholder) hholder h.fresh
  | some c =>
    obtain ⟨hwires, hvoiced⟩ := h.serving c hholder
    have hown : ∀ d ∈ s.addedWatchers, d = c := fun d hd => hwires.ownAdded d (mem_addedWatchers.mp hd)
    constructor
    · exact h.covered.foldl_enter _
    · simp [hholder]
    · exact h.fresh
    · intro d hd
      have hd : c = d := Option.some.inj (hholder.symm.trans hd)
      subst hd
      constructor
      · simp only [Scope.live_foldl_enter]
        constructor
        · intro entry hentry
          rcases List.mem_append.mp hentry with hentry | hentry
          · exact List.mem_append_left _ (hwires.watched entry hentry)
          · rw [List.mem_singleton.mp hentry]
            exact List.mem_append_right _ (List.mem_map_of_mem (mem_addedWatchers.mpr hwires.added))
        · exact List.mem_append_left _ hwires.added
        · exact List.mem_append_left _ hwires.updates
        · intro entry d hd
          rcases List.mem_append.mp hd with hd | hd
          · exact hwires.own entry d hd
          · obtain ⟨e, he, heq⟩ := List.mem_map.mp hd
            cases heq
            exact hown d he
        · intro d hd
          rcases List.mem_append.mp hd with hd | hd
          · exact hwires.ownAdded d hd
          · simp at hd
      · simp only [Scope.live_foldl_enter]
        exact hvoiced.append zhaEntry _

theorem Hass.entryUpdated_eq (s : Hass) : ∃ n, s.reloads ≤ n ∧ s.entryUpdated = { s with reloads := n } := by
  have hcheck : ∀ c, ∃ n, s.reloads ≤ n ∧ s.asyncOptionsUpdated c = { s with reloads := n } := by
    intro c
    unfold Hass.asyncOptionsUpdated
    split
    · exact ⟨s.reloads + 1, Nat.le_succ _, rfl⟩
    · exact ⟨s.reloads, le_rfl, rfl⟩
  unfold Hass.entryUpdated
  split
  · split
    · exact hcheck _
    · exact ⟨s.reloads, le_rfl, rfl⟩
  · exact ⟨s.reloads, le_rfl, rfl⟩

theorem Hass.mem_setZhaState {zhaEntry : Nat} {state : ConfigEntryState} :
    ∀ entry ∈ (s.setZhaState zhaEntry state).zhaEntries, entry.1 ∈ s.zhaEntries.map Prod.fst := by
  intro entry hentry
  obtain ⟨old, hold, rfl⟩ := List.mem_map.mp hentry
  split
  case isTrue he => exact List.mem_map.mpr ⟨old, hold, he⟩
  case isFalse => exact List.mem_map_of_mem hold

theorem step_wired {l : Happening} (h : Wired s) (hs : step lower s l = some t) : Wired t := by
  cases l with
  | zhaState zhaEntry state =>
    simp only [step] at hs
    split at hs
    · cases hs
      refine Wired.zhaState ?_ zhaEntry state
      exact h.congr Hass.mem_setZhaState rfl rfl rfl rfl (fun _ hc => hc)
    · cases hs
  | zhaAdded =>
    cases hs
    exact h.zhaAdded _ rfl
  | zhaRemoved zhaEntry =>
    simp only [step] at hs
    split at hs
    · cases hs
    · cases hs
      refine h.congr ?_ rfl rfl rfl rfl (fun _ hc => hc)
      intro entry hentry
      exact List.mem_map_of_mem (List.mem_filter.mp hentry).1
  | gateway gateway =>
    cases hs
    exact h.congr (mem_own _) rfl rfl rfl rfl (fun _ hc => hc)
  | setup => exact h.setup hs
  | stringsRead =>
    simp only [step] at hs
    split at hs
    case h_1 c hstage =>
      cases hs
      exact h.congr (mem_own _) rfl rfl rfl (by rw [hstage]; rfl) (by simp [Stage.preparing, hstage])
    case h_2 => cases hs
  | platformsForwarded =>
    simp only [step] at hs
    split at hs
    case h_1 c hstage =>
      cases hs
      exact h.finishSetup hstage
    case h_2 => cases hs
  | setupRaised =>
    have hclosed : (s.processOnUnload).scope = Scope.empty := Scope.close_eq_empty h.covered
    simp only [step] at hs
    split at hs
    case h_1 => cases hs; exact wired_of_empty hclosed rfl (by simp [Stage.preparing])
    case h_2 => cases hs; exact wired_of_empty hclosed rfl (by simp [Stage.preparing])
    case h_3 => cases hs
  | unload shown => exact h.unload hs
  | platformsUnloaded ok =>
    have hclosed : (s.processOnUnload).scope = Scope.empty := Scope.close_eq_empty h.covered
    simp only [step] at hs
    split at hs
    case h_1 hstage =>
      split at hs
      · cases hs
        exact wired_of_empty hclosed rfl (by simp [Stage.preparing])
      · cases hs
        exact h.congr (mem_own _) rfl rfl rfl (by rw [hstage]; rfl) (by simp [Stage.preparing])
    case h_2 => cases hs
  | reload shown =>
    have htaken : Wired { s with reloads := s.reloads - 1 } :=
      h.congr (mem_own _) rfl rfl rfl rfl (fun _ hc => hc)
    simp only [step] at hs
    split at hs
    · cases hs
    · split at hs
      · cases hs
        exact htaken
      · exact htaken.unload hs
      · exact htaken.setup hs
  | options options =>
    obtain ⟨n, -, heq⟩ := ({ s with options := options } : Hass).entryUpdated_eq
    simp only [step, heq] at hs
    cases hs
    exact h.congr (mem_own _) rfl rfl rfl rfl (fun _ hc => hc)
  | reconfigured data =>
    obtain ⟨n, -, heq⟩ := ({ s with data := data } : Hass).entryUpdated_eq
    simp only [step, heq] at hs
    cases hs
    exact h.congr (mem_own _) rfl rfl rfl rfl (fun _ hc => hc)

theorem exec_wired {ls : List Happening} (hs : Starting s) (h : exec lower s ls = some t) : Wired t :=
  Transition.exec_invariant (fun _ _ _ => step_wired) hs.wired h

/-- In every order of steps a report is handed on once, to the coordinator of the
setup that stands, and only from the cluster that setup listens to. -/
theorem exec_hearers {ls : List Happening} (hs : Starting s) (h : exec lower s ls = some t)
    (cluster : ZhaCluster) :
    hearers t.scope.live cluster =
      match t.stage.holder with
      | some c => if (t.monitor c).listenedCluster = some cluster then [c] else []
      | none => [] := by
  have hwired := exec_wired hs h
  cases hholder : t.stage.holder with
  | none =>
    rw [hwired.idle hholder]
    rfl
  | some c => exact (hwired.serving c hholder).voiced.heard cluster

/-! ZHA is loaded anew under a loaded entry, which is reloaded onto the new objects. -/

def clusterOf (id : Nat) : ZhaCluster := ⟨id, [], true, false, false⟩

def proxyOf (cluster : ZhaCluster) : DeviceProxy where
  ieee := []
  proxy := ⟨some [⟨1, [(doorlockClusterId, cluster)]⟩], none, none⟩
  chain := []

def home : Hass where
  zhaEntries := [(0, .loaded)]
  nextZhaEntry := 1
  gateway := some [proxyOf (clusterOf 0)]
  data := ⟨[], none⟩
  options := ⟨none, fun _ => none⟩
  stage := .notLoaded
  coordinators := fun _ => ⟨[], none, false, 0⟩
  nextCoordinator := 0
  scope := Scope.empty
  lossLogged := false
  reloads := 0
  log := []

theorem home_starting : Starting home := ⟨rfl, rfl, rfl, rfl⟩

def reloadRun : List Happening :=
  [.setup, .stringsRead, .platformsForwarded, .zhaState 0 .notLoaded, .gateway (some [proxyOf (clusterOf 1)]),
    .zhaState 0 .loaded, .reload false, .platformsUnloaded true, .setup, .stringsRead, .platformsForwarded]

def reloaded : Hass := (exec id home reloadRun).getD home

theorem exec_reloadRun : exec id home reloadRun = some reloaded := rfl

theorem exec_hearers_reloaded :
    hearers reloaded.scope.live (clusterOf 1) = [1] ∧ hearers reloaded.scope.live (clusterOf 0) = [] := by
  constructor
  · exact (exec_hearers home_starting exec_reloadRun (clusterOf 1)).trans rfl
  · exact (exec_hearers home_starting exec_reloadRun (clusterOf 0)).trans rfl

/-- An entry that is not set up has nothing registered, and no undo step is left. -/
theorem exec_released {ls : List Happening} (hs : Starting s) (h : exec lower s ls = some t)
    (hidle : t.stage.holder = none) : t.scope = Scope.empty := (exec_wired hs h).idle hidle

def unloadRun : List Happening := reloadRun ++ [.zhaAdded, .unload true, .platformsUnloaded true]

theorem exec_released_unloadRun : ((exec id home unloadRun).getD home).scope = Scope.empty :=
  exec_released home_starting (show exec id home unloadRun = some ((exec id home unloadRun).getD home) from rfl) rfl

end Watch

end OnestiLock
