import Mathlib.Data.List.Chain
import OnestiLock.ZhaWatchRuns

/-! What a loaded entry says of lock events: the log lines over a whole run, and
that an entry does not stay on the objects of a ZHA that is gone. -/

namespace OnestiLock

open Python

namespace Watch

variable {lower : Text → Text} {s t : Hass} {c : Nat}

/-! The log. -/

/-- Losses and returns have been logged in turn, and the last line is the flag. -/
structure Tallied (s : Hass) : Prop where
  turns : List.IsChain (· ≠ ·) (false :: lossLines s.log)
  last : (false :: lossLines s.log).getLast? = some s.lossLogged

theorem Tallied.congr (h : Tallied s) (hlog : lossLines t.log = lossLines s.log)
    (hl : t.lossLogged = s.lossLogged) : Tallied t := by
  constructor
  · rw [hlog]
    exact h.turns
  · rw [hlog, hl]
    exact h.last

theorem Tallied.next (h : Tallied s) (lost : Bool) (hl : t.lossLogged = lost)
    (hlog : lossLines t.log = lossLines s.log ++ if s.lossLogged = lost then [] else [lost]) : Tallied t := by
  by_cases hsame : s.lossLogged = lost
  · apply h.congr
    · simpa [hsame] using hlog
    · rw [hl, hsame]
  · rw [if_neg hsame] at hlog
    constructor
    · rw [hlog, ← List.cons_append, List.isChain_append]
      refine ⟨h.turns, List.isChain_singleton _, ?_⟩
      intro x hx y hy
      rw [h.last] at hx
      cases hx
      cases hy
      exact hsame
    · rw [hlog, ← List.cons_append, List.getLast?_append, hl]
      rfl

theorem Tallied.setAvailable (h : Tallied s) (c : Nat) (available quiet : Bool) :
    Tallied (s.setAvailable c available quiet) := by
  obtain ⟨lines, heq, hlines⟩ := Hass.setAvailable_eq c available quiet s
  rw [heq]
  cases quiet with
  | true => exact h.congr (by simpa using hlines) rfl
  | false => exact h.next (!available) rfl (by simpa using hlines)

theorem Tallied.startEventListener (h : Tallied s) (c : Nat) : Tallied (s.startEventListener lower c) := by
  rcases Hass.startEventListener_cases lower c s with ⟨cluster, lines, -, heq, hlines⟩ | ⟨detail, lines, heq, hlines⟩
  · rw [heq]
    refine h.next false rfl ?_
    simp only [Hass.listening, lossLines_append, hlines]
    cases s.lossLogged <;> rfl
  · rw [heq]
    exact h.congr (by simp [Hass.missing, hlines]) rfl

theorem Tallied.onZhaStateChange (h : Tallied s) (c : Nat) (state : ConfigEntryState) :
    Tallied (s.onZhaStateChange lower c state) := by
  rcases Hass.onZhaStateChange_cases lower c state s with ⟨heq, -⟩ | ⟨heq, -⟩ | ⟨heq, -⟩ | ⟨cluster, heq, -⟩
  · rw [heq]
    exact h
  · rw [heq]
    exact h.setAvailable c false false
  · rw [heq]
    exact h.congr rfl rfl
  · rw [heq]
    exact h.setAvailable c true false

theorem Tallied.finishSetup (h : Tallied s) (c : Nat) : Tallied (s.finishSetup lower c) := by
  have hwatching : Tallied ((s.watchZhaEntries c).enter .updateListener) := by
    rw [Hass.watchZhaEntries_eq]
    exact h.congr rfl rfl
  unfold Hass.finishSetup
  dsimp only
  split
  · exact (hwatching.setAvailable c false false).congr rfl rfl
  · exact (hwatching.startEventListener c).congr rfl rfl

theorem Tallied.setup (h : Tallied s) (hs : s.setup lower = some t) : Tallied t := by
  obtain ⟨-, rfl⟩ := Hass.setup_idle hs
  unfold Hass.asyncSetupEntry
  split
  · exact h.congr rfl rfl
  · exact h.congr rfl rfl

theorem Tallied.unload (h : Tallied s) {shown : Bool} (hs : s.unload shown = some t) : Tallied t := by
  unfold Hass.unload at hs
  split at hs
  case h_4 => cases hs
  all_goals
    cases hs
    exact h.congr rfl rfl

theorem step_tallied {l : Happening} (h : Tallied s) (hs : step lower s l = some t) : Tallied t := by
  cases l with
  | zhaState zhaEntry state =>
    simp only [step] at hs
    split at hs
    · cases hs
      generalize Hass.watchers _ zhaEntry = ds
      have hset : Tallied (s.setZhaState zhaEntry state) := h.congr rfl rfl
      generalize s.setZhaState zhaEntry state = r at hset
      induction ds generalizing r with
      | nil => exact hset
      | cons d ds ih => exact ih _ (hset.onZhaStateChange d state)
    · cases hs
  | zhaAdded =>
    cases hs
    rw [foldl_watch_eq]
    exact h.congr rfl rfl
  | zhaRemoved zhaEntry =>
    simp only [step] at hs
    split at hs
    · cases hs
    · cases hs
      exact h.congr rfl rfl
  | gateway gateway =>
    cases hs
    exact h.congr rfl rfl
  | setup => exact h.setup hs
  | stringsRead =>
    simp only [step] at hs
    split at hs
    · cases hs
      exact h.congr rfl rfl
    · cases hs
  | platformsForwarded =>
    simp only [step] at hs
    split at hs
    · cases hs
      exact h.finishSetup _
    · cases hs
  | setupRaised =>
    simp only [step] at hs
    split at hs
    case h_3 => cases hs
    all_goals
      cases hs
      exact h.congr rfl rfl
  | unload shown => exact h.unload hs
  | platformsUnloaded ok =>
    simp only [step] at hs
    split at hs
    · split at hs
      all_goals
        cases hs
        exact h.congr rfl rfl
    · cases hs
  | reload shown =>
    have htaken : Tallied { s with reloads := s.reloads - 1 } := h.congr rfl rfl
    simp only [step] at hs
    split at hs
    · cases hs
    · split at hs
      · cases hs
        exact htaken
      · exact htaken.unload hs
      · exact htaken.setup hs
  | options options =>
    obtain ⟨n, -, heq⟩ := ({ s with options := options } : Hass).entryUpdated_eq
    simp only [step, heq] at hs
    cases hs
    exact h.congr rfl rfl
  | reconfigured data =>
    obtain ⟨n, -, heq⟩ := ({ s with data := data } : Hass).entryUpdated_eq
    simp only [step, heq] at hs
    cases hs
    exact h.congr rfl rfl

/-- Over every run, reloads included, a loss and a return are logged in turn, and
what the entities of a set-up entry show is what was logged last, unless the
repair issue stands. -/
theorem exec_lossLines {ls : List Happening} (hs : Starting s) (h : exec lower s ls = some t) :
    List.IsChain (· ≠ ·) (false :: lossLines t.log) ∧
      ∀ c, t.stage.holder = some c →
        ((t.monitor c).available = true → (false :: lossLines t.log).getLast? = some false) ∧
        ((t.monitor c).available = false →
          (false :: lossLines t.log).getLast? = some true ∨ ∃ detail, .issue detail ∈ t.scope.live) := by
  have hstart : Tallied s := by
    constructor
    · rw [hs.log]
      exact List.isChain_singleton _
    · rw [hs.log, hs.lossLogged]
      rfl
  have htallied : Tallied t := Transition.exec_invariant (fun _ _ _ => step_tallied) hstart h
  refine ⟨htallied.turns, ?_⟩
  intro c hc
  have hvoiced := ((exec_wired hs h).serving c hc).voiced
  constructor
  · intro havailable
    rw [htallied.last, hvoiced.returned havailable]
  · intro hunavailable
    rw [htallied.last]
    rcases hvoiced.explained hunavailable with hlost | hissue
    · exact Or.inl (congrArg some hlost)
    · exact Or.inr hissue

theorem exec_lossLines_reloaded :
    lossLines reloaded.log = [true, false] ∧ List.IsChain (· ≠ ·) (false :: lossLines reloaded.log) :=
  ⟨rfl, (exec_lossLines home_starting exec_reloadRun).1⟩

/-! The cluster. -/

def Happening.rebuilds : Happening → Bool
  | .gateway _ => true
  | _ => false

/-- ZHA builds its objects anew only while none of its entries is loaded. -/
def ObjectsKept (s : Hass) (l : Happening) : Prop := l.rebuilds = true → s.zhaEntryLoaded = false

instance objectsKept_decidable (s : Hass) (l : Happening) : Decidable (ObjectsKept s l) :=
  inferInstanceAs (Decidable (_ → _))

/-- The entry listens to the cluster that ZHA has now, or its reload is scheduled,
or the repair issue says what is missing. -/
def Current (lower : Text → Text) (s : Hass) (c : Nat) : Prop :=
  0 < s.reloads ∨ (∃ detail, .issue detail ∈ s.scope.live) ∨
    ∃ cluster, s.cluster lower c = some cluster ∧ (s.monitor c).listenedCluster = some cluster ∧
      (s.monitor c).available = true

/-- A loaded entry is current whenever a ZHA entry is loaded. -/
def Following (lower : Text → Text) (s : Hass) : Prop :=
  ∀ c, s.stage = .loaded c → s.zhaEntryLoaded = true → Current lower s c

theorem cluster_congr (hg : t.gateway = s.gateway) (hm : (t.monitor c).ieee = (s.monitor c).ieee) :
    t.cluster lower c = s.cluster lower c := by
  rw [Hass.cluster, hg, hm, Hass.cluster]

theorem Current.congr (h : Current lower s c) (hr : s.reloads ≤ t.reloads)
    (hlive : ∀ detail, .issue detail ∈ s.scope.live → .issue detail ∈ t.scope.live)
    (hg : t.gateway = s.gateway) (hm : t.monitor c = s.monitor c) : Current lower t c := by
  rcases h with h | ⟨detail, h⟩ | ⟨cluster, hcluster, h⟩
  · exact Or.inl (by omega)
  · exact Or.inr (Or.inl ⟨detail, hlive detail h⟩)
  · refine Or.inr (Or.inr ⟨cluster, ?_, ?_⟩)
    · rw [cluster_congr hg (by rw [hm]), hcluster]
    · rw [hm]
      exact h

theorem Following.congr (h : Following lower s) (hz : t.zhaEntryLoaded = true → s.zhaEntryLoaded = true)
    (hstage : ∀ c, t.stage = .loaded c → s.stage = .loaded c) (hr : s.reloads ≤ t.reloads)
    (hlive : ∀ detail, .issue detail ∈ s.scope.live → .issue detail ∈ t.scope.live)
    (hg : t.gateway = s.gateway) (hm : t.coordinators = s.coordinators) : Following lower t := by
  intro c hc hloaded
  refine (h c (hstage c hc) (hz hloaded)).congr hr hlive hg ?_
  rw [Hass.monitor, hm, Hass.monitor]

theorem Current.setAvailable {cluster : ZhaCluster} (hcluster : s.cluster lower c = some cluster)
    (hlistened : (s.monitor c).listenedCluster = some cluster) :
    Current lower (s.setAvailable c true false) c := by
  right
  right
  refine ⟨cluster, ?_, ?_, ?_⟩
  · rw [cluster_congr _ _, hcluster]
    · exact Hass.gateway_setAvailable ..
    · rw [Hass.monitor_setAvailable]
  · rw [Hass.monitor_setAvailable]
    exact hlistened
  · rw [Hass.monitor_setAvailable]

/-- A ZHA entry that has come to be loaded leaves the entry current. -/
theorem current_onZhaStateChange (hstage : s.stage.isLoaded = true) :
    Current lower (s.onZhaStateChange lower c .loaded) c := by
  rcases Hass.onZhaStateChange_cases lower c .loaded s with
    ⟨-, hout⟩ | ⟨-, hout, -⟩ | ⟨heq, -⟩ | ⟨cluster, heq, -, hlistened, hcluster⟩
  · simp [hstage] at hout
  · exact absurd rfl hout
  · rw [heq]
    exact Or.inl (Nat.succ_pos _)
  · rw [heq]
    exact Current.setAvailable hcluster hlistened

theorem current_foldl_onZhaStateChange (hstage : s.stage.isLoaded = true) (ds : List Nat) (hne : ds ≠ [])
    (hds : ∀ d ∈ ds, d = c) :
    Current lower (ds.foldl (fun s d => s.onZhaStateChange lower d .loaded) s) c := by
  induction ds generalizing s with
  | nil => exact absurd rfl hne
  | cons d ds ih =>
    have hd : d = c := hds d List.mem_cons_self
    subst hd
    by_cases hlast : ds = []
    · subst hlast
      exact current_onZhaStateChange hstage
    · apply ih _ hlast
      · exact fun e he => hds e (List.mem_cons_of_mem _ he)
      · show (s.onZhaStateChange lower d .loaded).stage.isLoaded = true
        rw [(onZhaStateChange_kept lower d .loaded s).2.1]
        exact hstage

/-- One that has come to another state, with ZHA still up, changes nothing. -/
theorem foldl_onZhaStateChange_still {state : ConfigEntryState} (hstate : state ≠ .loaded)
    (hloaded : s.zhaEntryLoaded = true) (ds : List Nat) :
    ds.foldl (fun s d => s.onZhaStateChange lower d state) s = s := by
  induction ds with
  | nil => rfl
  | cons d ds ih =>
    rw [List.foldl_cons]
    rcases Hass.onZhaStateChange_cases lower d state s with
      ⟨heq, -⟩ | ⟨-, -, hnone⟩ | ⟨-, heq⟩ | ⟨cluster, -, heq, -⟩
    · rw [heq]
      exact ih
    · exact absurd (hloaded.symm.trans hnone) (by decide)
    · exact absurd heq hstate
    · exact absurd heq hstate

/-- An entry that is loaded after another one has left that state was loaded before. -/
theorem zhaEntryLoaded_of_setZhaState {zhaEntry : Nat} {state : ConfigEntryState} (hstate : state ≠ .loaded)
    (h : (s.setZhaState zhaEntry state).zhaEntryLoaded = true) : s.zhaEntryLoaded = true := by
  obtain ⟨entry, hentry, hloaded⟩ := List.any_eq_true.mp h
  obtain ⟨old, hold, rfl⟩ := List.mem_map.mp hentry
  refine List.any_eq_true.mpr ⟨old, hold, ?_⟩
  split at hloaded
  · exact absurd (of_decide_eq_true hloaded) hstate
  · exact hloaded

theorem Following.zhaState (h : Following lower s) (hwired : Wired s) {zhaEntry : Nat}
    (hknown : zhaEntry ∈ s.zhaEntries.map Prod.fst) (state : ConfigEntryState) :
    Following lower (((s.setZhaState zhaEntry state).watchers zhaEntry).foldl
      (fun s c => s.onZhaStateChange lower c state) (s.setZhaState zhaEntry state)) := by
  intro c hc hloaded
  have hset : (s.setZhaState zhaEntry state).watchers zhaEntry = s.watchers zhaEntry := rfl
  have hc' : s.stage = .loaded c :=
    (foldl_onZhaStateChange_kept lower state _ (s.setZhaState zhaEntry state)).2.1.symm.trans hc
  have hwires := (hwired.serving c (by rw [hc']; rfl)).wires
  rw [Hass.zhaEntryLoaded, (foldl_onZhaStateChange_kept _ _ _ _).2.2] at hloaded
  by_cases hstate : state = .loaded
  · subst hstate
    apply current_foldl_onZhaStateChange
    · exact congrArg Stage.isLoaded hc'
    · obtain ⟨entry, hentry, he⟩ := List.mem_map.mp hknown
      have hmem : c ∈ s.watchers zhaEntry := mem_watchers.mpr (he ▸ hwires.watched entry hentry)
      exact List.ne_nil_of_mem (hset ▸ hmem)
    · exact fun d hd => hwires.own zhaEntry d (mem_watchers.mp hd)
  · rw [foldl_onZhaStateChange_still hstate hloaded]
    exact (h c hc' (zhaEntryLoaded_of_setZhaState hstate hloaded)).congr le_rfl (fun _ hd => hd) rfl rfl

theorem Following.zhaAdded (h : Following lower s) {zhaEntry : Nat} {next : Nat} (ds : List Nat) :
    Following lower (ds.foldl (fun s d => s.watch d zhaEntry)
      { s with zhaEntries := s.zhaEntries ++ [(zhaEntry, ConfigEntryState.notLoaded)], nextZhaEntry := next }) := by
  rw [foldl_watch_eq]
  refine h.congr ?_ (fun _ hc => hc) le_rfl ?_ rfl rfl
  · simp [Hass.zhaEntryLoaded]
  · intro detail hd
    rw [Scope.live_foldl_enter]
    exact List.mem_append_left _ hd

theorem following_startEventListener (c : Nat) : Current lower (s.startEventListener lower c) c := by
  rcases Hass.startEventListener_cases lower c s with ⟨cluster, lines, hcluster, heq, -⟩ | ⟨detail, lines, heq, -⟩
  · rw [heq]
    have hieee : ((s.listening c cluster lines).monitor c).ieee = (s.monitor c).ieee := by
      rw [Hass.monitor_listening]
    right
    right
    have hgateway : (s.listening c cluster lines).gateway = s.gateway := rfl
    refine ⟨cluster, (cluster_congr hgateway hieee).trans hcluster, ?_, ?_⟩
    · rw [Hass.monitor_listening]
    · rw [Hass.monitor_listening]
  · rw [heq]
    exact Or.inr (Or.inl ⟨detail, by simp⟩)

theorem following_finishSetup (c : Nat) : Following lower (s.finishSetup lower c) := by
  intro d hd hloaded
  have hd : c = d := by simpa [holder_finishSetup] using hd
  subst hd
  unfold Hass.finishSetup at hloaded ⊢
  dsimp only at hloaded ⊢
  split
  case isTrue hnone =>
    rw [if_pos hnone] at hloaded
    simp only [Bool.and_eq_true, Bool.not_eq_true'] at hnone
    have hloaded : (((s.watchZhaEntries c).enter .updateListener).setAvailable c false false).zhaEntryLoaded =
      true := hloaded
    rw [Hass.zhaEntryLoaded, Hass.zhaEntries_setAvailable] at hloaded
    exact absurd (hloaded.symm.trans hnone.2) (by decide)
  case isFalse =>
    exact (following_startEventListener c).congr le_rfl (fun _ hd => hd) rfl rfl

theorem following_of_not_loaded (h : ∀ c, s.stage ≠ .loaded c) : Following lower s :=
  fun c hc => absurd hc (h c)

theorem Hass.setup_stage (hs : s.setup lower = some t) : ∀ c, t.stage ≠ .loaded c := by
  obtain ⟨-, rfl⟩ := Hass.setup_idle hs
  intro c
  unfold Hass.asyncSetupEntry
  split <;> simp

theorem Hass.unload_stage {shown : Bool} (hs : s.unload shown = some t) : ∀ c, t.stage ≠ .loaded c := by
  unfold Hass.unload at hs
  split at hs
  case h_4 => cases hs
  all_goals
    cases hs
    simp

theorem step_following {l : Happening} (hwired : Wired s) (h : Following lower s) (hkept : ObjectsKept s l)
    (hs : step lower s l = some t) : Following lower t := by
  cases l with
  | zhaState zhaEntry state =>
    simp only [step] at hs
    split at hs
    case isTrue hknown =>
      cases hs
      exact h.zhaState hwired hknown state
    case isFalse => cases hs
  | zhaAdded =>
    cases hs
    exact h.zhaAdded _
  | zhaRemoved zhaEntry =>
    simp only [step] at hs
    split at hs
    · cases hs
    · cases hs
      refine h.congr ?_ (fun _ hc => hc) le_rfl (fun _ hd => hd) rfl rfl
      intro hloaded
      obtain ⟨entry, hentry, he⟩ := List.any_eq_true.mp hloaded
      exact List.any_eq_true.mpr ⟨entry, (List.mem_filter.mp hentry).1, he⟩
  | gateway gateway =>
    cases hs
    intro c _ hloaded
    have hnone : s.zhaEntryLoaded = false := hkept rfl
    exact absurd (hnone.symm.trans hloaded) (by decide)
  | setup => exact following_of_not_loaded (Hass.setup_stage hs)
  | stringsRead =>
    simp only [step] at hs
    split at hs
    · cases hs
      exact following_of_not_loaded (by simp)
    · cases hs
  | platformsForwarded =>
    simp only [step] at hs
    split at hs
    · cases hs
      exact following_finishSetup _
    · cases hs
  | setupRaised =>
    simp only [step] at hs
    split at hs
    case h_3 => cases hs
    all_goals
      cases hs
      exact following_of_not_loaded (by simp)
  | unload shown => exact following_of_not_loaded (Hass.unload_stage hs)
  | platformsUnloaded ok =>
    simp only [step] at hs
    split at hs
    · split at hs
      all_goals
        cases hs
        exact following_of_not_loaded (by simp)
    · cases hs
  | reload shown =>
    simp only [step] at hs
    split at hs
    · cases hs
    · split at hs
      case h_1 c hstage =>
        cases hs
        exact following_of_not_loaded (by simp [show s.stage = _ from hstage])
      case h_2 => exact following_of_not_loaded (Hass.unload_stage hs)
      case h_3 => exact following_of_not_loaded (Hass.setup_stage hs)
  | options options =>
    obtain ⟨n, hn, heq⟩ := ({ s with options := options } : Hass).entryUpdated_eq
    simp only [step, heq] at hs
    cases hs
    exact h.congr (fun hz => hz) (fun _ hc => hc) hn (fun _ hd => hd) rfl rfl
  | reconfigured data =>
    obtain ⟨n, hn, heq⟩ := ({ s with data := data } : Hass).entryUpdated_eq
    simp only [step, heq] at hs
    cases hs
    exact h.congr (fun hz => hz) (fun _ hc => hc) (Nat.le_succ_of_le hn) (fun _ hd => hd) rfl rfl

/-- While ZHA is loaded, a loaded entry with no reload to come and no repair issue
is available and hears the cluster ZHA has now, however often ZHA was loaded anew. -/
theorem exec_follows {ls : List Happening} (hs : Starting s)
    (hkept : Transition.Along (step lower) ObjectsKept s ls) (h : exec lower s ls = some t)
    (hc : t.stage = .loaded c) (hloaded : t.zhaEntryLoaded = true) (hreloads : t.reloads = 0)
    (hissue : ∀ detail, .issue detail ∉ t.scope.live) :
    (t.monitor c).available = true ∧
      ∃ cluster, t.cluster lower c = some cluster ∧ hearers t.scope.live cluster = [c] := by
  have hinv : Wired t ∧ Following lower t := by
    refine Transition.exec_invariant_along (I := fun s => Wired s ∧ Following lower s) ?_ ⟨hs.wired, ?_⟩ hkept h
    · exact fun s l t hst hg hstep => ⟨step_wired hst.1 hstep, step_following hst.1 hst.2 hg hstep⟩
    · exact following_of_not_loaded (by simp [hs.stage])
  rcases hinv.2 c hc hloaded with hpos | ⟨detail, hd⟩ | ⟨cluster, hcluster, hlistened, havailable⟩
  · omega
  · exact absurd hd (hissue detail)
  · refine ⟨havailable, cluster, hcluster, ?_⟩
    rw [(hinv.1.serving c (by rw [hc]; rfl)).voiced.heard cluster, if_pos hlistened]

theorem exec_follows_reloaded :
    (reloaded.monitor 1).available = true ∧
      ∃ cluster, reloaded.cluster id 1 = some cluster ∧ hearers reloaded.scope.live cluster = [1] := by
  have hissue : ∀ r ∈ reloaded.scope.live, r.key ≠ .issue [] := by decide
  exact exec_follows home_starting (by decide) exec_reloadRun rfl rfl rfl (fun _ h => hissue _ h rfl)

end Watch

end OnestiLock
