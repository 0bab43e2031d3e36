import Mathlib.Data.List.Basic
import Mathlib.Tactic.Tauto
import OnestiLock.ZhaDevices

/-! Which locks the integration offers to set up: the pickers of the user step
and of reconfigure (`config_flow.py`), and the discovery watch (`__init__.py`). -/

namespace OnestiLock

open Python

inductive EntrySource
  | user | integrationDiscovery | ignore
  deriving DecidableEq

/-- A config entry of this integration. An ignored one has no data. -/
structure LockConfig where
  entryId : Nat
  source : EntrySource
  uniqueId : Option Text
  ieee : Option Text
  model : Option Text
  deriving DecidableEq

/-- What starts a flow; reconfigure is started on an entry. -/
inductive FlowSource
  | user | integrationDiscovery | reconfigure (entryId : Nat)
  deriving DecidableEq

/-- A flow in progress, with the lock a discovery flow asks about. -/
structure LockFlow where
  flowId : Nat
  source : FlowSource
  uniqueId : Option Text
  discovered : Option (Text × Text)
  deriving DecidableEq

/-- `pending` are the discovery flows asked for and not yet started. -/
structure FlowState where
  entries : List LockConfig
  flows : List LockFlow
  pending : List (Text × Option Text)
  gateway : Gateway

inductive FlowAnswer
  | abort (reason : String)
  | showForm (stepId : String) (options : List (Text × Text)) (default : Option Text)
    (errors : List (String × String))
  | createEntry (ieee : Text) (model : Option Text)
  | updateEntry (ieee : Text) (model : Option Text)
  deriving DecidableEq

def FlowAnswer.offers : FlowAnswer → List Text
  | showForm _ options _ _ => options.map Prod.fst
  | abort _ | createEntry .. | updateEntry .. => []

/-! Texts of addresses. Of `str.lower` only what the proofs use is said. ZHA
writes an address in one way, and two addresses differ in more than letter case. -/

structure AddressText where
  lower : Text → Text
  written : Text → Prop
  lower_eq_nil : ∀ t, lower t = [] ↔ t = []
  written_ne_nil : ∀ t, written t → t ≠ []
  eq_of_lower : ∀ s t, written s → written t → lower s = lower t → s = t

/-- What Home Assistant's flow manager does for a flow. A unique id in use stops
a flow, which only the user's own may ignore where the entry is an ignored one.
A finished flow adds its entry, may take the place of another, and ends the
flows about the same unique id. -/
structure FlowManager where
  configured : List LockConfig → FlowSource → Text → Bool
  create : FlowState → LockFlow → Text → Option Text → FlowState
  configured_of_mem : ∀ entries source ieee, ∀ e ∈ entries, e.uniqueId = some ieee →
    e.source ≠ .ignore ∨ source ≠ .user → configured entries source ieee = true
  not_configured : ∀ entries source ieee, (∀ e ∈ entries, e.uniqueId ≠ some ieee) →
    configured entries source ieee = false
  entries_create : ∀ s flow ieee model, ∃ kept e, kept.Sublist s.entries ∧
    (create s flow ieee model).entries = kept ++ [e] ∧ (∀ other ∈ s.entries, other.entryId ≠ e.entryId) ∧
    e.source ≠ .ignore ∧ e.uniqueId = flow.uniqueId ∧ e.ieee = some ieee ∧ e.model = model
  flows_create : ∀ s flow ieee model, ∀ other ∈ (create s flow ieee model).flows,
    other ∈ s.flows ∧ (flow.uniqueId ≠ none → other.uniqueId ≠ flow.uniqueId)
  pending_create : ∀ s flow ieee model, (create s flow ieee model).pending = s.pending
  gateway_create : ∀ s flow ieee model, (create s flow ieee model).gateway = s.gateway

/-! The pickers. -/

/-- What an entry adds to `taken`. -/
def takenBy (skipEntryId : Option Nat) (offerIgnored : Bool) (e : LockConfig) : Option (Option Text) :=
  if some e.entryId = skipEntryId then none
  else if e.source = .ignore then if offerIgnored then none else some e.uniqueId
  else some e.ieee

def locksOnOffer (entries : List LockConfig) (gateway : Gateway) (skipEntryId : Option Nat)
    (offerIgnored : Bool) : List (Text × Option Text) :=
  let taken := entries.filterMap (takenBy skipEntryId offerIgnored)
  (iterOnestiLocks gateway).filter (fun lock => some lock.1 ∉ taken)

/-- `locks.get(ieee)`: the model of the lock, where it has one. -/
def modelOf (locks : List (Text × Option Text)) (ieee : Text) : Option Text :=
  (locks.reverse.lookup ieee).join

def deviceLabels (locks : List (Text × Option Text)) : List (Text × Text) :=
  locks.map (fun lock => (lock.1, lock.2.getD (text "None") ++ text " (" ++ lock.1 ++ text ")"))

/-- Whether another flow in progress has the unique id. -/
def FlowState.inProgress (s : FlowState) (flow : LockFlow) (ieee : Text) : Bool :=
  s.flows.any (fun other => decide (other.flowId ≠ flow.flowId) && decide (other.uniqueId = some ieee))

section

variable (m : FlowManager)

def asyncStepUser (s : FlowState) (flow : LockFlow) (userInput : Option Text) : FlowAnswer :=
  if isZhaLoaded s.gateway = false then .abort "zha_not_found"
  else
    let locks := locksOnOffer s.entries s.gateway none false
    if locks.isEmpty then .abort "no_devices_found"
    else match userInput with
    | none => .showForm "user" (deviceLabels locks) none []
    | some ieee =>
      if s.inProgress flow ieee then .abort "already_in_progress"
      else if m.configured s.entries flow.source ieee then .abort "already_configured"
      else match modelOf locks ieee with
      | none => .showForm "user" (deviceLabels locks) none [("device", "device_gone")]
      | some model => .createEntry ieee (some model)

def asyncStepReconfigure (s : FlowState) (entry : LockConfig) (userInput : Option Text) : FlowAnswer :=
  if isZhaLoaded s.gateway = false then .abort "zha_not_found"
  else
    let locks := locksOnOffer s.entries s.gateway (some entry.entryId) true
    let current := entry.ieee.filter (fun ieee => decide (ieee ∈ locks.map Prod.fst))
    if locks.isEmpty then .abort "no_devices_found"
    else match userInput with
    | none => .showForm "reconfigure" (deviceLabels locks) current []
    | some ieee =>
      if s.entries.any (fun other =>
          decide (other.entryId ≠ entry.entryId) && decide (other.ieee = some ieee)) then
        .abort "already_configured"
      else match modelOf locks ieee with
      | none => .showForm "reconfigure" (deviceLabels locks) current [("device", "device_gone")]
      | some model => .updateEntry ieee (some model)

/-- `none` where the step goes on to ask for confirmation. -/
def asyncStepIntegrationDiscovery (s : FlowState) (flow : LockFlow) (ieee : Text) : Option FlowAnswer :=
  if s.inProgress flow ieee then some (.abort "already_in_progress")
  else if m.configured s.entries flow.source ieee then some (.abort "already_configured")
  else none

def asyncStepDiscoveryConfirm (ieee model : Text) (confirmed : Bool) : FlowAnswer :=
  if confirmed then .createEntry ieee (some model) else .showForm "discovery_confirm" [] none []

end

/-! The discovery watch. -/

section

variable (lower : Text → Text)

def knownBy (e : LockConfig) : List Text :=
  ([e.ieee.getD [], e.uniqueId.getD []].filter (fun address => address ≠ [])).map lower

def asyncDiscoverLocks (entries : List LockConfig) (gateway : Gateway) : List (Text × Option Text) :=
  let known := entries.flatMap (knownBy lower)
  (iterOnestiLocks gateway).filter (fun lock => lower lock.1 ∉ known)

end

/-! Which locks each of them offers. -/

def LockConfig.SetUp (e : LockConfig) : Prop := e.source ≠ .ignore

instance (e : LockConfig) : Decidable e.SetUp := inferInstanceAs (Decidable (e.source ≠ .ignore))

def InZha (gateway : Gateway) (lock : Text) : Prop := lock ∈ (iterOnestiLocks gateway).map Prod.fst

/-- ZHA writes the addresses of its locks. -/
def AddressText.Writes (z : AddressText) (gateway : Gateway) : Prop :=
  ∀ lock, InZha gateway lock → z.written lock

/-- A stored address is the lock's but for letter case. -/
def AddressText.Same (z : AddressText) (stored : Option Text) (lock : Text) : Prop :=
  ∃ address, stored = some address ∧ z.lower address = z.lower lock

/-- The lock has an entry: it is set up, or it is ignored. -/
def Owned (z : AddressText) (entries : List LockConfig) (lock : Text) : Prop :=
  ∃ e ∈ entries, (e.SetUp ∧ z.Same e.ieee lock) ∨ (¬ e.SetUp ∧ z.Same e.uniqueId lock)

/-- The same with the lock's address as ZHA writes it. -/
def Taken (entries : List LockConfig) (lock : Text) : Prop :=
  ∃ e ∈ entries, (e.SetUp ∧ e.ieee = some lock) ∨ (¬ e.SetUp ∧ e.uniqueId = some lock)

/-- An entry of any kind names the lock. -/
def Known (z : AddressText) (entries : List LockConfig) (lock : Text) : Prop :=
  ∃ e ∈ entries, z.Same e.ieee lock ∨ z.Same e.uniqueId lock

theorem AddressText.same_self (z : AddressText) (lock : Text) : z.Same (some lock) lock := ⟨lock, rfl, rfl⟩

section

variable {z : AddressText} {entries : List LockConfig} {gateway : Gateway} {lock : Text}

theorem owned_of_taken (h : Taken entries lock) : Owned z entries lock := by
  obtain ⟨e, he, hset | hignored⟩ := h
  · exact ⟨e, he, .inl ⟨hset.1, hset.2 ▸ z.same_self lock⟩⟩
  · exact ⟨e, he, .inr ⟨hignored.1, hignored.2 ▸ z.same_self lock⟩⟩

theorem known_of_owned (h : Owned z entries lock) : Known z entries lock := by
  obtain ⟨e, he, hset | hignored⟩ := h
  · exact ⟨e, he, .inl hset.2⟩
  · exact ⟨e, he, .inr hignored.2⟩

theorem mem_map_filter {p : Text × Option Text → Bool} {q : Text → Prop} {locks : List (Text × Option Text)}
    (h : ∀ l ∈ locks, p l = true ↔ q l.1) :
    lock ∈ (locks.filter p).map Prod.fst ↔ lock ∈ locks.map Prod.fst ∧ q lock := by
  constructor
  · intro hmem
    obtain ⟨l, hl, rfl⟩ := List.mem_map.mp hmem
    obtain ⟨hl, hp⟩ := List.mem_filter.mp hl
    exact ⟨List.mem_map_of_mem hl, (h l hl).mp hp⟩
  · intro ⟨hmem, hq⟩
    obtain ⟨l, hl, rfl⟩ := List.mem_map.mp hmem
    exact List.mem_map_of_mem (List.mem_filter.mpr ⟨hl, (h l hl).mpr hq⟩)

theorem mem_taken_user :
    some lock ∈ entries.filterMap (takenBy none false) ↔ Taken entries lock := by
  rw [List.mem_filterMap]
  apply exists_congr
  intro e
  apply and_congr_right
  intro _
  unfold takenBy LockConfig.SetUp
  by_cases hignored : e.source = .ignore
  · simp [hignored]
  · simp [hignored]

theorem mem_taken_reconfigure {entryId : Nat} :
    some lock ∈ entries.filterMap (takenBy (some entryId) true) ↔
      ∃ e ∈ entries, e.SetUp ∧ e.entryId ≠ entryId ∧ e.ieee = some lock := by
  rw [List.mem_filterMap]
  apply exists_congr
  intro e
  apply and_congr_right
  intro _
  unfold takenBy LockConfig.SetUp
  by_cases hself : e.entryId = entryId
  · simp [hself]
  · by_cases hignored : e.source = .ignore
    · simp [hself, hignored]
    · simp [hself, hignored]

theorem keys_deviceLabels (locks : List (Text × Option Text)) :
    (deviceLabels locks).map Prod.fst = locks.map Prod.fst := by
  simp [deviceLabels, Function.comp_def]

/-- A picker's form offers the locks of its list, and there is no form where there are none. -/
theorem mem_offers_iff {locks : List (Text × Option Text)} {stepId reason empty : String}
    {default : Option Text} {errors : List (String × String)}
    (hloaded : isZhaLoaded gateway = false → locks = []) :
    lock ∈ (if isZhaLoaded gateway = false then FlowAnswer.abort reason
      else if locks.isEmpty then FlowAnswer.abort empty
      else FlowAnswer.showForm stepId (deviceLabels locks) default errors).offers ↔
      lock ∈ locks.map Prod.fst := by
  by_cases hzha : isZhaLoaded gateway = false
  · rw [if_pos hzha, hloaded hzha]
    exact Iff.rfl
  · rw [if_neg hzha]
    by_cases hempty : locks.isEmpty = true
    · rw [if_pos hempty, List.isEmpty_iff.mp hempty]
      exact Iff.rfl
    · rw [if_neg hempty, ← keys_deviceLabels]
      exact Iff.rfl

theorem locksOnOffer_of_not_loaded (h : isZhaLoaded gateway = false) (skipEntryId : Option Nat)
    (offerIgnored : Bool) : locksOnOffer entries gateway skipEntryId offerIgnored = [] := by
  have hnone : gateway = none := by simpa [isZhaLoaded] using h
  subst hnone
  rfl

theorem mem_locksOnOffer_user :
    lock ∈ (locksOnOffer entries gateway none false).map Prod.fst ↔
      InZha gateway lock ∧ ¬ Taken entries lock := by
  unfold locksOnOffer
  apply mem_map_filter
  intro l _
  rw [decide_eq_true_eq, mem_taken_user]

theorem mem_locksOnOffer_reconfigure {entryId : Nat} :
    lock ∈ (locksOnOffer entries gateway (some entryId) true).map Prod.fst ↔
      InZha gateway lock ∧
        ¬ ∃ e ∈ entries, e.SetUp ∧ e.entryId ≠ entryId ∧ e.ieee = some lock := by
  unfold locksOnOffer
  apply mem_map_filter
  intro l _
  rw [decide_eq_true_eq, mem_taken_reconfigure]

theorem mem_knownBy (hne : lock ≠ []) {e : LockConfig} :
    z.lower lock ∈ knownBy z.lower e ↔ z.Same e.ieee lock ∨ z.Same e.uniqueId lock := by
  have hlower : z.lower lock ≠ [] := fun h => hne ((z.lower_eq_nil lock).mp h)
  have hsame : ∀ stored : Option Text,
      (∃ address, (address = stored.getD [] ∧ address ≠ []) ∧ z.lower address = z.lower lock) ↔
        z.Same stored lock := by
    intro stored
    cases stored with
    | none =>
      constructor
      · intro ⟨address, ⟨heq, hsome⟩, _⟩
        exact absurd heq hsome
      · intro ⟨address, heq, _⟩
        exact absurd heq nofun
    | some address =>
      constructor
      · intro ⟨other, ⟨heq, _⟩, hcase⟩
        obtain rfl : other = address := heq
        exact ⟨other, rfl, hcase⟩
      · intro ⟨other, heq, hcase⟩
        obtain rfl := Option.some.inj heq
        refine ⟨address, ⟨rfl, ?_⟩, hcase⟩
        intro hnil
        exact hlower (hcase ▸ (z.lower_eq_nil address).mpr hnil)
  rw [← hsame, ← hsame, ← exists_or]
  unfold knownBy
  rw [List.mem_map]
  apply exists_congr
  intro address
  simp only [List.mem_filter, List.mem_cons, List.not_mem_nil, or_false, decide_eq_true_eq]
  tauto

theorem mem_asyncDiscoverLocks (hwritten : z.Writes gateway) :
    lock ∈ (asyncDiscoverLocks z.lower entries gateway).map Prod.fst ↔
      InZha gateway lock ∧ ¬ Known z entries lock := by
  unfold asyncDiscoverLocks
  apply mem_map_filter
  intro l hl
  have hne : l.1 ≠ [] := z.written_ne_nil _ (hwritten _ (List.mem_map_of_mem hl))
  rw [decide_eq_true_eq, List.mem_flatMap]
  apply not_congr
  apply exists_congr
  intro e
  exact and_congr_right (fun _ => mem_knownBy hne)

end

/-! The offers are right where every lock an entry names is also held by one as
ZHA writes it. -/

section

variable (m : FlowManager) (z : AddressText)

/-- Discovery starts a flow for the lock, and the flow gets to ask about it. -/
def OffersToDiscover (entries : List LockConfig) (gateway : Gateway) (flow : LockFlow) (lock : Text) : Prop :=
  lock ∈ (asyncDiscoverLocks z.lower entries gateway).map Prod.fst ∧
    asyncStepIntegrationDiscovery m ⟨entries, [], [], gateway⟩ flow lock = none

/-- A lock that has an entry is not offered again, and every other one is.
Reconfigure may offer the entry's own lock and the ignored ones. -/
structure OffersRight (s : FlowState) : Prop where
  user : ∀ flow lock, InZha s.gateway lock →
    (lock ∈ (asyncStepUser m s flow none).offers ↔ ¬ Owned z s.entries lock)
  discovery : ∀ flow lock, InZha s.gateway lock →
    (OffersToDiscover m z s.entries s.gateway flow lock ↔ ¬ Owned z s.entries lock)
  reconfigure : ∀ entry ∈ s.entries, entry.SetUp → ∀ lock, InZha s.gateway lock →
    (¬ Owned z s.entries lock → lock ∈ (asyncStepReconfigure s entry none).offers) ∧
    (lock ∈ (asyncStepReconfigure s entry none).offers → z.Same entry.ieee lock ∨
      ∀ e ∈ s.entries, e.SetUp → e.entryId ≠ entry.entryId → ¬ z.Same e.ieee lock)

/-- A lock that an entry names is taken as ZHA writes it, and one that a set-up
entry holds is held so by a set-up entry, where another could be pointed at it. -/
structure HeldAlike (s : FlowState) : Prop where
  taken : ∀ lock, InZha s.gateway lock → Known z s.entries lock → Taken s.entries lock
  held : ∀ entry ∈ s.entries, entry.SetUp → ∀ lock, InZha s.gateway lock → ¬ z.Same entry.ieee lock →
    (∃ e ∈ s.entries, e.SetUp ∧ e.entryId ≠ entry.entryId ∧ z.Same e.ieee lock) →
    ∃ e ∈ s.entries, e.SetUp ∧ e.entryId ≠ entry.entryId ∧ e.ieee = some lock

variable {m z} {s : FlowState} {lock : Text}

theorem mem_offers_user (flow : LockFlow) :
    lock ∈ (asyncStepUser m s flow none).offers ↔ InZha s.gateway lock ∧ ¬ Taken s.entries lock := by
  have hform : lock ∈ (asyncStepUser m s flow none).offers ↔
      lock ∈ (locksOnOffer s.entries s.gateway none false).map Prod.fst :=
    mem_offers_iff (fun h => locksOnOffer_of_not_loaded h none false)
  exact hform.trans mem_locksOnOffer_user

theorem mem_offers_reconfigure (entry : LockConfig) :
    lock ∈ (asyncStepReconfigure s entry none).offers ↔ InZha s.gateway lock ∧
      ¬ ∃ e ∈ s.entries, e.SetUp ∧ e.entryId ≠ entry.entryId ∧ e.ieee = some lock := by
  have hform : lock ∈ (asyncStepReconfigure s entry none).offers ↔
      lock ∈ (locksOnOffer s.entries s.gateway (some entry.entryId) true).map Prod.fst :=
    mem_offers_iff (fun h => locksOnOffer_of_not_loaded h (some entry.entryId) true)
  exact hform.trans mem_locksOnOffer_reconfigure

theorem offersToDiscover_iff (hwritten : z.Writes s.gateway) (flow : LockFlow) :
    OffersToDiscover m z s.entries s.gateway flow lock ↔
      InZha s.gateway lock ∧ ¬ Known z s.entries lock := by
  unfold OffersToDiscover
  rw [mem_asyncDiscoverLocks hwritten]
  constructor
  · intro h
    exact h.1
  · intro h
    refine ⟨h, ?_⟩
    have hfree : m.configured s.entries flow.source lock = false := by
      apply m.not_configured
      intro e he hunique
      exact h.2 ⟨e, he, .inr (hunique ▸ z.same_self lock)⟩
    unfold asyncStepIntegrationDiscovery
    rw [hfree]
    rfl

theorem HeldAlike.known_iff (h : HeldAlike z s) (hzha : InZha s.gateway lock) :
    Known z s.entries lock ↔ Taken s.entries lock :=
  ⟨h.taken lock hzha, fun ht => known_of_owned (owned_of_taken ht)⟩

theorem HeldAlike.owned_iff (h : HeldAlike z s) (hzha : InZha s.gateway lock) :
    Owned z s.entries lock ↔ Taken s.entries lock :=
  ⟨fun ho => h.taken lock hzha (known_of_owned ho), owned_of_taken⟩

theorem HeldAlike.offersRight (h : HeldAlike z s) (hwritten : z.Writes s.gateway) :
    OffersRight m z s where
  user := by
    intro flow lock hzha
    rw [mem_offers_user, h.owned_iff hzha]
    exact and_iff_right hzha
  discovery := by
    intro flow lock hzha
    rw [offersToDiscover_iff hwritten, h.owned_iff hzha, h.known_iff hzha]
    exact and_iff_right hzha
  reconfigure := by
    intro entry hentry hset lock hzha
    rw [mem_offers_reconfigure]
    constructor
    · intro hfree
      refine ⟨hzha, ?_⟩
      intro hheld
      obtain ⟨e, he, hsetUp, -, hieee⟩ := hheld
      exact hfree ⟨e, he, .inl ⟨hsetUp, hieee ▸ z.same_self lock⟩⟩
    · intro hoffered
      by_cases hown : z.Same entry.ieee lock
      · exact .inl hown
      · right
        intro e he hsetUp hother hsame
        exact hoffered.2 (h.held entry hentry hset lock hzha hown ⟨e, he, hsetUp, hother, hsame⟩)

theorem OffersRight.heldAlike (h : OffersRight m z s) (hwritten : z.Writes s.gateway) :
    HeldAlike z s where
  taken := by
    intro lock hzha hknown
    by_contra hfree
    have flow : LockFlow := ⟨0, .user, none, none⟩
    have huser : ¬ Owned z s.entries lock := (h.user flow lock hzha).mp ((mem_offers_user flow).mpr ⟨hzha, hfree⟩)
    have hdiscovered := (h.discovery flow lock hzha).mpr huser
    exact ((offersToDiscover_iff hwritten flow).mp hdiscovered).2 hknown
  held := by
    intro entry hentry hset lock hzha hown ⟨e, he, hsetUp, hother, hsame⟩
    by_contra hfree
    have hoffered := (mem_offers_reconfigure entry).mpr ⟨hzha, hfree⟩
    cases ((h.reconfigure entry hentry hset lock hzha).2 hoffered) with
    | inl hsame => exact hown hsame
    | inr hnone => exact hnone e he hsetUp hother hsame

theorem offersRight_iff (hwritten : z.Writes s.gateway) : OffersRight m z s ↔ HeldAlike z s :=
  ⟨fun h => h.heldAlike hwritten, fun h => h.offersRight hwritten⟩

end

end OnestiLock
