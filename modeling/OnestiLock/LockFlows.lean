import OnestiLock.CommandRuns
import OnestiLock.LockOffers

/-! Runs of the config flows: while every lock is held as ZHA writes it, no two
set-up entries are about one lock. A step of a flow is one turn of the event loop. -/

namespace OnestiLock

open Python

/-- `_clear_the_way_for`: the other flows about the address end, and an ignored
entry for it goes. -/
def clearTheWayFor (s : FlowState) (flow : LockFlow) (ieee : Text) : FlowState :=
  { s with
    flows := s.flows.filter (fun other =>
      decide (other.flowId = flow.flowId) || decide (other.uniqueId ≠ some ieee))
    entries := s.entries.filter (fun e => !(decide (e.source = .ignore) && decide (e.uniqueId = some ieee))) }

/-- The entry takes the address, and the flow is over. -/
def updateReloadAndAbort (s : FlowState) (flow : LockFlow) (entryId : Nat) (ieee : Text)
    (model : Option Text) : FlowState :=
  { s with
    flows := s.flows.filter (fun other => decide (other.flowId ≠ flow.flowId))
    entries := s.entries.map (fun e =>
      if e.entryId = entryId then { e with uniqueId := some ieee, ieee := some ieee, model := model } else e) }

section

variable (m : FlowManager) (z : AddressText)

inductive FlowStep : FlowState → FlowState → Prop
  | discover (s : FlowState) :
    FlowStep s { s with pending := s.pending ++ asyncDiscoverLocks z.lower s.entries s.gateway }
  | asked (s : FlowState) (lock : Text × Option Text) (flow : LockFlow) (hpending : lock ∈ s.pending)
    (hsource : flow.source = .integrationDiscovery)
    (hstep : asyncStepIntegrationDiscovery m s flow lock.1 = none) :
    FlowStep s { s with
      pending := s.pending.erase lock
      flows := { flow with uniqueId := some lock.1, discovered := some (lock.1, lock.2.getD []) } :: s.flows }
  | confirmed (s : FlowState) (flow : LockFlow) (lock : Text × Text) (ieee : Text) (model : Option Text)
    (hflow : flow ∈ s.flows) (hlock : flow.discovered = some lock)
    (hstep : asyncStepDiscoveryConfirm lock.1 lock.2 true = .createEntry ieee model) :
    FlowStep s (m.create s flow ieee model)
  | chosen (s : FlowState) (flow : LockFlow) (input ieee : Text) (model : Option Text)
    (hflow : flow ∈ s.flows) (hsource : flow.source = .user)
    (hstep : asyncStepUser m s flow (some input) = .createEntry ieee model) :
    FlowStep s (m.create s { flow with uniqueId := some ieee } ieee model)
  | moved (s : FlowState) (flow : LockFlow) (entry : LockConfig) (input ieee : Text) (model : Option Text)
    (hflow : flow ∈ s.flows) (hsource : flow.source = .reconfigure entry.entryId)
    (hentry : entry ∈ s.entries) (hset : entry.SetUp)
    (hstep : asyncStepReconfigure s entry (some input) = .updateEntry ieee model) :
    FlowStep s (updateReloadAndAbort (clearTheWayFor s flow ieee) flow entry.entryId ieee model)
  /-- All else: a dialog is opened, shown again or closed, an entry is removed or
  a lock ignored, a discovery flow is not started, ZHA's devices change. -/
  | others (s t : FlowState) (hentries : ∀ e ∈ t.entries, e.SetUp → e ∈ s.entries)
    (hflows : ∀ flow ∈ t.flows, flow ∈ s.flows ∨ flow.discovered = none)
    (hpending : ∀ lock ∈ t.pending, lock ∈ s.pending) (hwritten : z.Writes t.gateway) : FlowStep s t

/-- A run in which every step finds the locks held as ZHA writes them. -/
inductive FlowRun : FlowState → FlowState → Prop
  | refl (s : FlowState) : FlowRun s s
  | step (s t u : FlowState) (hrun : FlowRun s t) (hheld : HeldAlike z t) (hstep : FlowStep m z t u) :
    FlowRun s u

end

/-- No two set-up entries have addresses that are equal ignoring letter case. -/
def NoTwo (z : AddressText) (entries : List LockConfig) : Prop :=
  ∀ a ∈ entries, ∀ b ∈ entries, a.SetUp → b.SetUp →
    ∀ address, a.ieee = some address → z.Same b.ieee address → a.entryId = b.entryId

/-- What the steps keep. A lock with a Discovered card has no entry. One whose
flow is asked for may get an entry before the flow starts, which its unique id
then stops. -/
structure LocksApart (z : AddressText) (s : FlowState) : Prop where
  written : z.Writes s.gateway
  noTwo : NoTwo z s.entries
  card : ∀ flow ∈ s.flows, ∀ lock, flow.discovered = some lock → z.written lock.1 ∧
    flow.uniqueId = some lock.1 ∧ ∀ e ∈ s.entries, e.SetUp → ¬ z.Same e.ieee lock.1
  pending : ∀ lock ∈ s.pending, z.written lock.1 ∧
    ∀ e ∈ s.entries, e.SetUp → z.Same e.ieee lock.1 → e.ieee = some lock.1 ∧ e.uniqueId = some lock.1

/-- The entries of `t` are those of `s`, and one under `entryId` that holds the
address; no flow is about the address any more. -/
structure Took (s t : FlowState) (entryId : Nat) (ieee : Text) : Prop where
  entries : ∀ e ∈ t.entries, e.SetUp → e ∈ s.entries ∧ e.entryId ≠ entryId ∨
    e.entryId = entryId ∧ e.ieee = some ieee ∧ e.uniqueId = some ieee
  flows : ∀ flow ∈ t.flows, flow ∈ s.flows ∧ flow.uniqueId ≠ some ieee
  pending : t.pending = s.pending
  gateway : t.gateway = s.gateway

section

variable {m : FlowManager} {z : AddressText} {s t : FlowState} {entryId : Nat} {ieee : Text}

theorem AddressText.Same.trans {stored : Option Text} {lock other : Text} (h : z.Same stored lock)
    (h' : z.Same (some lock) other) : z.Same stored other := by
  obtain ⟨address, hstored, hcase⟩ := h
  obtain ⟨_, heq, hcase'⟩ := h'
  obtain rfl := Option.some.inj heq
  exact ⟨address, hstored, hcase.trans hcase'⟩

theorem AddressText.Same.symm {lock other : Text} (h : z.Same (some lock) other) :
    z.Same (some other) lock := by
  obtain ⟨_, heq, hcase⟩ := h
  obtain rfl := Option.some.inj heq
  exact ⟨other, rfl, hcase.symm⟩

theorem AddressText.eq_of_same {lock other : Text} (h : z.Same (some lock) other) (hlock : z.written lock)
    (hother : z.written other) : lock = other := by
  obtain ⟨_, heq, hcase⟩ := h
  obtain rfl := Option.some.inj heq
  exact z.eq_of_lower _ _ hlock hother hcase

theorem LocksApart.took (h : LocksApart z s) (htook : Took s t entryId ieee) (hieee : z.written ieee)
    (hfree : ∀ e ∈ s.entries, e.SetUp → e.entryId ≠ entryId → ¬ z.Same e.ieee ieee) : LocksApart z t where
  written := htook.gateway ▸ h.written
  noTwo := by
    intro a ha b hb hasetUp hbsetUp address haddress hsame
    cases htook.entries a ha hasetUp with
    | inl hold =>
      have haself : z.Same (some address) ieee → False := fun hsame' =>
        hfree a hold.1 hasetUp hold.2 (haddress ▸ hsame')
      cases htook.entries b hb hbsetUp with
      | inl hold' => exact h.noTwo a hold.1 b hold'.1 hasetUp hbsetUp address haddress hsame
      | inr hnew =>
        rw [hnew.2.1] at hsame
        exact absurd hsame.symm haself
    | inr hnew =>
      obtain rfl := Option.some.inj (haddress.symm.trans hnew.2.1)
      cases htook.entries b hb hbsetUp with
      | inl hold => exact absurd hsame (hfree b hold.1 hbsetUp hold.2)
      | inr hnew' => exact hnew.1.trans hnew'.1.symm
  card := by
    intro flow hflow lock hlock
    obtain ⟨hmem, hother⟩ := htook.flows flow hflow
    obtain ⟨hwritten, hunique, hnone⟩ := h.card flow hmem lock hlock
    refine ⟨hwritten, hunique, ?_⟩
    intro e he hsetUp hsame
    cases htook.entries e he hsetUp with
    | inl hold => exact hnone e hold.1 hsetUp hsame
    | inr hnew =>
      have heq : ieee = lock.1 := AddressText.eq_of_same (hnew.2.1 ▸ hsame) hieee hwritten
      exact hother (heq ▸ hunique)
  pending := by
    intro lock hlock
    rw [htook.pending] at hlock
    obtain ⟨hwritten, honly⟩ := h.pending lock hlock
    refine ⟨hwritten, ?_⟩
    intro e he hsetUp hsame
    cases htook.entries e he hsetUp with
    | inl hold => exact honly e hold.1 hsetUp hsame
    | inr hnew =>
      have heq : ieee = lock.1 := AddressText.eq_of_same (hnew.2.1 ▸ hsame) hieee hwritten
      exact heq ▸ hnew.2

end

/-! What each step of the integration takes. -/

section

variable {m : FlowManager} {z : AddressText} {s t : FlowState}

theorem mem_of_modelOf {locks : List (Text × Option Text)} {ieee model : Text}
    (h : modelOf locks ieee = some model) : ieee ∈ locks.map Prod.fst := by
  have hlookup : locks.reverse.lookup ieee = some (some model) := Option.join_eq_some_iff.mp h
  obtain ⟨before, after, hsplit, -⟩ := List.lookup_eq_some_iff.mp hlookup
  have hmem : (ieee, some model) ∈ locks.reverse := hsplit ▸ List.mem_append_right before List.mem_cons_self
  exact List.mem_map_of_mem (List.mem_reverse.mp hmem)

theorem asyncStepUser_createEntry {flow : LockFlow} {input ieee : Text} {model : Option Text}
    (h : asyncStepUser m s flow (some input) = .createEntry ieee model) :
    InZha s.gateway ieee ∧ ¬ Taken s.entries ieee := by
  unfold asyncStepUser at h
  simp only at h
  split_ifs at h
  split at h
  case h_1 => exact absurd h nofun
  case h_2 found hfound =>
    obtain ⟨rfl, -⟩ := FlowAnswer.createEntry.inj h
    exact mem_locksOnOffer_user.mp (mem_of_modelOf hfound)

theorem asyncStepReconfigure_updateEntry {entry : LockConfig} {input ieee : Text} {model : Option Text}
    (h : asyncStepReconfigure s entry (some input) = .updateEntry ieee model) :
    ieee ∈ (asyncStepReconfigure s entry none).offers := by
  unfold asyncStepReconfigure at h
  simp only at h
  split_ifs at h
  split at h
  case h_1 => exact absurd h nofun
  case h_2 found hfound =>
    obtain ⟨rfl, -⟩ := FlowAnswer.updateEntry.inj h
    exact (mem_offers_reconfigure entry).mpr (mem_locksOnOffer_reconfigure.mp (mem_of_modelOf hfound))

theorem took_create {flow : LockFlow} {ieee : Text} {model : Option Text}
    (hunique : flow.uniqueId = some ieee) :
    ∃ entryId, (∀ e ∈ s.entries, e.entryId ≠ entryId) ∧ Took s (m.create s flow ieee model) entryId ieee := by
  obtain ⟨kept, e, hkept, hentries, hfresh, -, hnew, hieee, -⟩ := m.entries_create s flow ieee model
  refine ⟨e.entryId, hfresh, ?_, ?_, m.pending_create .., m.gateway_create ..⟩
  · intro other hother _
    rw [hentries] at hother
    cases List.mem_append.mp hother with
    | inl hold =>
      have hmem := hkept.subset hold
      exact .inl ⟨hmem, hfresh other hmem⟩
    | inr hlast =>
      obtain rfl := List.mem_singleton.mp hlast
      exact .inr ⟨rfl, hieee, hnew.trans hunique⟩
  · intro other hother
    obtain ⟨hmem, hends⟩ := m.flows_create s flow ieee model other hother
    refine ⟨hmem, ?_⟩
    rw [← hunique]
    exact hends (by simp [hunique])

theorem took_updateReloadAndAbort (flow : LockFlow) (entryId : Nat) (ieee : Text) (model : Option Text) :
    Took s (updateReloadAndAbort (clearTheWayFor s flow ieee) flow entryId ieee model) entryId ieee where
  entries := by
    intro e he _
    obtain ⟨old, hold, rfl⟩ := List.mem_map.mp he
    have hmem : old ∈ s.entries := (List.mem_filter.mp hold).1
    by_cases hid : old.entryId = entryId
    · right
      rw [if_pos hid]
      exact ⟨hid, rfl, rfl⟩
    · left
      rw [if_neg hid]
      exact ⟨hmem, hid⟩
  flows := by
    intro other hother
    obtain ⟨hcleared, hnot⟩ := List.mem_filter.mp hother
    obtain ⟨hmem, hends⟩ := List.mem_filter.mp hcleared
    simp only [decide_eq_true_eq] at hnot
    simp only [Bool.or_eq_true, decide_eq_true_eq] at hends
    exact ⟨hmem, hends.resolve_left hnot⟩
  pending := rfl
  gateway := rfl

theorem not_same_of_not_known {lock : Text} (h : ¬ Known z s.entries lock) :
    ∀ e ∈ s.entries, e.SetUp → ¬ z.Same e.ieee lock :=
  fun e he _ hsame => h ⟨e, he, .inl hsame⟩

theorem LocksApart.discover (h : LocksApart z s) :
    LocksApart z { s with pending := s.pending ++ asyncDiscoverLocks z.lower s.entries s.gateway } where
  written := h.written
  noTwo := h.noTwo
  card := h.card
  pending := by
    intro lock hlock
    cases List.mem_append.mp hlock with
    | inl hold => exact h.pending lock hold
    | inr hnew =>
      obtain ⟨hzha, hfree⟩ := (mem_asyncDiscoverLocks h.written).mp (List.mem_map_of_mem hnew)
      refine ⟨h.written _ hzha, ?_⟩
      intro e he hsetUp hsame
      exact absurd hsame (not_same_of_not_known hfree e he hsetUp)

/-- The unique id stops a flow whose lock got an entry meanwhile. -/
theorem LocksApart.asked (h : LocksApart z s) {lock : Text × Option Text} {flow : LockFlow} (hpending : lock ∈ s.pending)
    (hstep : asyncStepIntegrationDiscovery m s flow lock.1 = none) :
    LocksApart z { s with
      pending := s.pending.erase lock
      flows := { flow with uniqueId := some lock.1, discovered := some (lock.1, lock.2.getD []) } :: s.flows } where
  written := h.written
  noTwo := h.noTwo
  card := by
    obtain ⟨hwritten, honly⟩ := h.pending lock hpending
    intro other hother found hfound
    cases List.mem_cons.mp hother with
    | inl hnew =>
      subst hnew
      obtain rfl := Option.some.inj hfound
      refine ⟨hwritten, rfl, ?_⟩
      intro e he hsetUp hsame
      have hconfigured : m.configured s.entries flow.source lock.1 = true :=
        m.configured_of_mem _ _ _ e he (honly e he hsetUp hsame).2 (.inl hsetUp)
      unfold asyncStepIntegrationDiscovery at hstep
      rw [hconfigured, if_pos rfl] at hstep
      split_ifs at hstep
    | inr hold => exact h.card other hold found hfound
  pending := fun other hother => h.pending other (List.mem_of_mem_erase hother)

theorem LocksApart.others (h : LocksApart z s) (hentries : ∀ e ∈ t.entries, e.SetUp → e ∈ s.entries)
    (hflows : ∀ flow ∈ t.flows, flow ∈ s.flows ∨ flow.discovered = none)
    (hpending : ∀ lock ∈ t.pending, lock ∈ s.pending) (hwritten : z.Writes t.gateway) : LocksApart z t where
  written := hwritten
  noTwo := fun a ha b hb hasetUp hbsetUp =>
    h.noTwo a (hentries a ha hasetUp) b (hentries b hb hbsetUp) hasetUp hbsetUp
  card := by
    intro flow hflow lock hlock
    cases hflows flow hflow with
    | inl hold =>
      obtain ⟨hwritten, hunique, hnone⟩ := h.card flow hold lock hlock
      exact ⟨hwritten, hunique, fun e he hsetUp => hnone e (hentries e he hsetUp) hsetUp⟩
    | inr hnone => exact absurd (hlock.symm.trans hnone) nofun
  pending := by
    intro lock hlock
    obtain ⟨hwritten, honly⟩ := h.pending lock (hpending lock hlock)
    exact ⟨hwritten, fun e he hsetUp => honly e (hentries e he hsetUp) hsetUp⟩

theorem LocksApart.step (h : LocksApart z s) (hheld : HeldAlike z s) (hstep : FlowStep m z s t) : LocksApart z t := by
  cases hstep with
  | discover => exact h.discover
  | asked lock flow hpending _ hstep => exact h.asked hpending hstep
  | confirmed flow lock ieee model hflow hlock hstep =>
    obtain ⟨rfl, -⟩ := FlowAnswer.createEntry.inj hstep
    obtain ⟨hwritten, hunique, hnone⟩ := h.card flow hflow lock hlock
    obtain ⟨entryId, -, htook⟩ := took_create hunique
    exact h.took htook hwritten (fun e he hsetUp _ => hnone e he hsetUp)
  | chosen flow input ieee model hflow hsource hstep =>
    obtain ⟨hzha, hfree⟩ := asyncStepUser_createEntry hstep
    have hunique : ({ flow with uniqueId := some ieee } : LockFlow).uniqueId = some ieee := rfl
    obtain ⟨entryId, -, htook⟩ := took_create hunique
    have hunknown : ¬ Known z s.entries ieee := fun hknown => hfree (hheld.taken ieee hzha hknown)
    exact h.took htook (h.written ieee hzha) (fun e he hsetUp _ => not_same_of_not_known hunknown e he hsetUp)
  | moved flow entry input ieee model hflow hsource hentry hset hstep =>
    have hoffered := asyncStepReconfigure_updateEntry hstep
    have hzha := ((mem_offers_reconfigure entry).mp hoffered).1
    have hright : OffersRight m z s := hheld.offersRight h.written
    apply h.took (took_updateReloadAndAbort flow entry.entryId ieee model) (h.written ieee hzha)
    intro e he hsetUp hother hsame
    cases (hright.reconfigure entry hentry hset ieee hzha).2 hoffered with
    | inl hown =>
      -- the entry keeps its own lock, which no other entry has
      obtain ⟨address, haddress, hcase⟩ := hsame
      obtain ⟨own, hownAddress, hcase'⟩ := hown
      exact hother (h.noTwo e he entry hentry hsetUp hset address haddress
        ⟨own, hownAddress, hcase'.trans hcase.symm⟩)
    | inr hnone => exact hnone e he hsetUp hother hsame
  | others _ hentries hflows hpending hwritten => exact h.others hentries hflows hpending hwritten

theorem LocksApart.run (h : LocksApart z s) (hrun : FlowRun m z s t) : LocksApart z t := by
  induction hrun with
  | refl => exact h
  | step t u hrun hheld hstep ih => exact ih.step hheld hstep

end

/-- No discovery flow is asked for or in progress, and no two set-up entries are
about one lock. -/
structure Started (z : AddressText) (s : FlowState) : Prop where
  written : z.Writes s.gateway
  noTwo : NoTwo z s.entries
  pending : s.pending = []
  flows : ∀ flow ∈ s.flows, flow.discovered = none

theorem Started.apart {z : AddressText} {s : FlowState} (h : Started z s) : LocksApart z s where
  written := h.written
  noTwo := h.noTwo
  card := fun flow hflow lock hlock => absurd (hlock.symm.trans (h.flows flow hflow)) nofun
  pending := by
    intro lock hlock
    rw [h.pending] at hlock
    exact absurd hlock List.not_mem_nil

/-- The offers are right exactly while the locks are held as ZHA writes them, and
in a run that keeps to that no two set-up entries are about one lock. -/
theorem lock_offers (m : FlowManager) (z : AddressText) :
    (∀ s : FlowState, z.Writes s.gateway → (OffersRight m z s ↔ HeldAlike z s)) ∧
    ∀ s t : FlowState, Started z s → FlowRun m z s t → NoTwo z t.entries := by
  constructor
  · intro s hwritten
    exact offersRight_iff hwritten
  · intro s t hstart hrun
    exact (hstart.apart.run hrun).noTwo

/-! An entry whose address is kept in capital letters, with addresses that ZHA
writes in small ones: the user step offers the lock again, and sets it up twice. -/

def smallLetters : AddressText where
  lower t := t.map Cli.lowerAscii
  written t := t ≠ [] ∧ t.map Cli.lowerAscii = t
  lower_eq_nil _ := List.map_eq_nil_iff
  written_ne_nil _ h := h.1
  eq_of_lower _ _ hs ht h := hs.2.symm.trans (h.trans ht.2)

def freshId (entries : List LockConfig) : Nat := (entries.map LockConfig.entryId).foldr max 0 + 1

theorem entryId_lt_freshId {entries : List LockConfig} {e : LockConfig} (he : e ∈ entries) :
    e.entryId < freshId entries := by
  unfold freshId
  induction entries with
  | nil => exact absurd he List.not_mem_nil
  | cons other rest ih =>
    rw [List.map_cons, List.foldr_cons]
    cases List.mem_cons.mp he with
    | inl hself =>
      subst hself
      omega
    | inr hrest =>
      have := ih hrest
      omega

def newEntry (s : FlowState) (flow : LockFlow) (ieee : Text) (model : Option Text) : LockConfig where
  entryId := freshId s.entries
  source := if flow.source = .integrationDiscovery then .integrationDiscovery else .user
  uniqueId := flow.uniqueId
  ieee := some ieee
  model := model

/-- A finished flow's entry replaces those with its unique id. -/
def replacing : FlowManager where
  configured entries source ieee := entries.any (fun e =>
    decide (e.uniqueId = some ieee) && (decide (e.source ≠ .ignore) || decide (source ≠ .user)))
  create s flow ieee model :=
    { s with
      entries := s.entries.filter (fun e => decide (e.uniqueId = none) || decide (e.uniqueId ≠ flow.uniqueId)) ++
        [newEntry s flow ieee model]
      flows := s.flows.filter (fun other => decide (other.flowId ≠ flow.flowId) &&
        (decide (flow.uniqueId = none) || decide (other.uniqueId ≠ flow.uniqueId))) }
  configured_of_mem entries source ieee e he hunique hstops := by
    rw [List.any_eq_true]
    refine ⟨e, he, ?_⟩
    simpa [hunique] using hstops
  not_configured entries source ieee hfree := by
    rw [List.any_eq_false]
    intro e he
    simp [hfree e he]
  entries_create s flow ieee model := by
    refine ⟨_, newEntry s flow ieee model, List.filter_sublist, rfl, ?_, ?_, rfl, rfl, rfl⟩
    · intro other hother
      have hlt := entryId_lt_freshId hother
      unfold newEntry
      simp only
      omega
    · unfold newEntry
      split
      · exact nofun
      · exact nofun
  flows_create s flow ieee model other hother := by
    obtain ⟨hmem, hends⟩ := List.mem_filter.mp hother
    refine ⟨hmem, ?_⟩
    intro hsome
    simpa [hsome] using (Bool.and_eq_true_iff.mp hends).2
  pending_create _ _ _ _ := rfl
  gateway_create _ _ _ _ := rfl

def frontDoorLock : ZhaDevice where
  ieee := text "f4:ce:36:0a:04:5b:2c:11"
  manufacturer := some manufacturer
  model := some (text "NimlyPRO")
  doorLock := true

def capitalEntry : LockConfig where
  entryId := 1
  source := .user
  uniqueId := some (text "F4:CE:36:0A:04:5B:2C:11")
  ieee := some (text "F4:CE:36:0A:04:5B:2C:11")
  model := some (text "NimlyPRO")

def userFlow : LockFlow := ⟨1, .user, none, none⟩

def capitalState : FlowState := ⟨[capitalEntry], [userFlow], [], some [frontDoorLock]⟩

theorem inZha_capitalState {lock : Text} (h : InZha capitalState.gateway lock) : lock = frontDoorLock.ieee := by
  have hlocks : (iterOnestiLocks capitalState.gateway).map Prod.fst = [frontDoorLock.ieee] := by decide
  unfold InZha at h
  rw [hlocks] at h
  exact List.mem_singleton.mp h

theorem started_capitalState : Started smallLetters capitalState where
  written := by
    intro lock hlock
    rw [inZha_capitalState hlock]
    exact ⟨by decide, by decide⟩
  noTwo := by
    intro a ha b hb _ _ _ _ _
    rw [List.mem_singleton.mp ha, List.mem_singleton.mp hb]
  pending := rfl
  flows := by
    intro flow hflow
    rw [List.mem_singleton.mp hflow]
    rfl

/-- The lock that has the entry is offered once more, and choosing it leaves two
entries about it. -/
theorem lock_offered_again :
    Started smallLetters capitalState ∧ ¬ OffersRight replacing smallLetters capitalState ∧
    ∃ t, FlowStep replacing smallLetters capitalState t ∧ ¬ NoTwo smallLetters t.entries := by
  have howned : smallLetters.Same capitalEntry.ieee frontDoorLock.ieee := ⟨_, rfl, by decide⟩
  refine ⟨started_capitalState, ?_, ?_⟩
  · intro hright
    have hoffered : frontDoorLock.ieee ∈ (asyncStepUser replacing capitalState userFlow none).offers := by decide
    have hzha : InZha capitalState.gateway frontDoorLock.ieee := List.mem_cons_self
    exact (hright.user userFlow frontDoorLock.ieee hzha).mp hoffered
      ⟨capitalEntry, List.mem_cons_self, .inl ⟨by decide, howned⟩⟩
  · refine ⟨_, .chosen capitalState userFlow frontDoorLock.ieee frontDoorLock.ieee frontDoorLock.model
      List.mem_cons_self rfl (by decide), ?_⟩
    intro hone
    have hids := hone (newEntry capitalState { userFlow with uniqueId := some frontDoorLock.ieee }
      frontDoorLock.ieee frontDoorLock.model) (by decide) capitalEntry (by decide) (by decide) (by decide)
      frontDoorLock.ieee rfl howned
    exact absurd hids (by decide)

end OnestiLock
