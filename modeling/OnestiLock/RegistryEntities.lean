import OnestiLock.RegistryDevices

/-! The entity half of the migration, and the whole of it: it never fails, it
loses no entity of the user, and a second run changes nothing. -/

namespace OnestiLock

/-- What comes before a separator is read off uniquely. -/
theorem eq_of_prefix_append {α : Type*} {c : α} {a b y : List α} (ha : c ∉ a) (hb : c ∉ b)
    (h : a ++ [c] <+: b ++ c :: y) : a = b := by
  induction a generalizing b with
  | nil =>
    cases b with
    | nil => rfl
    | cons z b =>
      have hz := (List.cons_prefix_cons.mp h).1
      exact absurd hz (by
        rintro rfl
        exact hb (by simp))
  | cons x a ih =>
    cases b with
    | nil =>
      have hx := (List.cons_prefix_cons.mp h).1
      exact absurd hx (by
        rintro rfl
        exact ha (by simp))
    | cons z b =>
      obtain ⟨rfl, htail⟩ := List.cons_prefix_cons.mp h
      rw [ih (fun hmem => ha (by simp [hmem])) (fun hmem => hb (by simp [hmem])) htail]

section

variable {l : StrLower} {entry : LockEntry}

theorem dash_notMem_lower {s : String} (h : '-' ∉ s.toList) : '-' ∉ l.lower s := by
  intro hmem
  obtain ⟨c, hc, hdash⟩ := List.mem_flatMap.mp hmem
  rw [l.dash_only c hdash] at hc
  exact h hc

theorem newId_not_prefix (hne : l.lower entry.entryId ≠ l.lower entry.ieee) (uniqueId : String) :
    entry.hasPrefix l (entry.newId l uniqueId) = false := by
  by_contra hprefix
  have hlower : l.lower (entry.newId l uniqueId) =
      l.lower entry.entryId ++ '-' :: l.lower (entry.suffix l uniqueId) := by
    simp [LockEntry.newId, StrLower.lower, l.dash]
  have h : l.lower entry.ieee ++ ['-'] <+: l.lower (entry.newId l uniqueId) := by
    simpa [LockEntry.hasPrefix, LockEntry.idPrefix] using hprefix
  rw [hlower] at h
  exact hne (eq_of_prefix_append (dash_notMem_lower entry.ieee_plain)
    (dash_notMem_lower entry.entryId_plain) h).symm

theorem suffix_of_newId {u v : String} (h : entry.newId l u = entry.newId l v) :
    entry.suffix l u = entry.suffix l v := by
  have hlist := congrArg String.toList h
  simp only [LockEntry.newId, String.toList_append, List.append_cancel_left_eq] at hlist
  exact String.toList_inj.mp hlist

end

/-- An entity of the entry that is still keyed on the address. -/
def RegistryEntry.IsIeee (l : StrLower) (entry : LockEntry) (e : RegistryEntry) : Prop :=
  e.configEntryId = some entry.entryId ∧ entry.hasPrefix l e.uniqueId = true

def RegistryEntry.migratedKey (l : StrLower) (entry : LockEntry) (e : RegistryEntry) : String × String × String :=
  (e.domain, e.platform, entry.newId l e.uniqueId)

/-- Where the entity loop stands: `rest` is still to come. -/
structure EntitiesAt {σ : Type} (r : Registries σ) (l : StrLower) (entry : LockEntry) (s₁ s : σ)
    (rest : List RegistryEntry) : Prop where
  devices : r.devices s = r.devices s₁
  ids : (rest.map RegistryEntry.entityId).Nodup
  listed : ∀ e ∈ rest, e ∈ r.entities s ∧ e ∈ r.entities s₁ ∧ e.configEntryId = some entry.entryId
  clean : ∀ e ∈ r.entities s, e.IsIeee l entry → e ∈ rest
  untouched : ∀ e ∈ r.entities s₁, ¬ e.IsIeee l entry → e ∈ r.entities s
  distinct : ∀ e ∈ r.entities s, ∀ e' ∈ r.entities s, e.key = e'.key → e = e'
  sources : ∀ e' ∈ r.entities s, e' ∈ r.entities s₁ ∨
    ∃ e ∈ r.entities s₁, e.IsIeee l entry ∧ e' = e.rekey (entry.newId l e.uniqueId)
  covered : ∀ e ∈ r.entities s₁, e.IsIeee l entry → e ∈ rest ∨
    ∃ e' ∈ r.entities s, e'.key = e.migratedKey l entry

namespace EntitiesAt

variable {σ : Type} {r : Registries σ} {l : StrLower} {entry : LockEntry} {s₁ s s' : σ}
variable {e : RegistryEntry} {rest : List RegistryEntry}

theorem start (h : r.Documented)
    (hdistinct : ∀ e ∈ r.entities s, ∀ e' ∈ r.entities s, e.key = e'.key → e = e') :
    EntitiesAt r l entry s s (rowsForConfigEntry r entry s) := by
  have hlisted : ∀ e, e ∈ rowsForConfigEntry r entry s ↔
      e ∈ r.entities s ∧ e.configEntryId = some entry.entryId := by
    intro e
    simp [rowsForConfigEntry, List.mem_filter]
  refine ⟨rfl, (h.entity_ids s).sublist (List.filter_sublist.map _), ?_, ?_, fun _ he _ => he, hdistinct,
    fun _ he => .inl he, ?_⟩
  · intro e he
    obtain ⟨hmem, hentry⟩ := (hlisted e).mp he
    exact ⟨hmem, hmem, hentry⟩
  · exact fun e he hieee => (hlisted e).mpr ⟨he, hieee.1⟩
  · exact fun e he hieee => .inl ((hlisted e).mpr ⟨he, hieee.1⟩)

theorem skip (hi : EntitiesAt r l entry s₁ s (e :: rest)) (he : entry.hasPrefix l e.uniqueId = false) :
    EntitiesAt r l entry s₁ s rest := by
  have hnot : ¬ e.IsIeee l entry := by
    rintro ⟨-, hprefix⟩
    rw [he] at hprefix
    simp at hprefix
  refine { hi with ids := (List.nodup_cons.mp hi.ids).2, listed := ?_, clean := ?_, covered := ?_ }
  · exact fun e' he' => hi.listed e' (List.mem_cons_of_mem _ he')
  · intro e' he' hieee
    rcases List.mem_cons.mp (hi.clean e' he' hieee) with rfl | hmem
    · exact absurd hieee hnot
    · exact hmem
  · intro e' he' hieee
    rcases hi.covered e' he' hieee with hmem | hcovered
    · rcases List.mem_cons.mp hmem with rfl | hmem
      · exact absurd hieee hnot
      · exact .inl hmem
    · exact .inr hcovered

theorem id_ne (hi : EntitiesAt r l entry s₁ s (e :: rest)) {e' : RegistryEntry} (he' : e' ∈ rest) :
    e'.entityId ≠ e.entityId := by
  intro heq
  have hnot := (List.nodup_cons.mp hi.ids).1
  rw [← heq] at hnot
  exact hnot (List.mem_map_of_mem he')

theorem other_id (h : r.Documented) (hieee : e.IsIeee l entry) {e' : RegistryEntry} {t : σ}
    (ht : e ∈ r.entities t) (he' : e' ∈ r.entities t) (hnot : ¬ e'.IsIeee l entry) :
    e'.entityId ≠ e.entityId := by
  intro heq
  rw [h.entity_eq he' ht heq] at hnot
  exact hnot hieee

theorem covering_not_ieee (hne : l.lower entry.entryId ≠ l.lower entry.ieee) {e' : RegistryEntry}
    (hkey : e'.key = e.migratedKey l entry) : ¬ e'.IsIeee l entry := by
  rintro ⟨-, hprefix⟩
  have hid : e'.uniqueId = entry.newId l e.uniqueId := (Prod.mk.inj (Prod.mk.inj hkey).2).2
  rw [hid, newId_not_prefix hne] at hprefix
  simp at hprefix

theorem remove (h : r.Documented) (hne : l.lower entry.entryId ≠ l.lower entry.ieee)
    (hi : EntitiesAt r l entry s₁ s (e :: rest)) (hieee : e.IsIeee l entry)
    (htaken : ∃ e' ∈ r.entities s, e'.key = e.migratedKey l entry) (hs : r.Removed e.entityId s s') :
    EntitiesAt r l entry s₁ s' rest := by
  obtain ⟨hmem, hmem₁, -⟩ := hi.listed e (by simp)
  have hcovering : ∀ {e₁ : RegistryEntry}, (∃ e' ∈ r.entities s, e'.key = e₁.migratedKey l entry) →
      ∃ e' ∈ r.entities s', e'.key = e₁.migratedKey l entry := by
    rintro e₁ ⟨e', he', hkey⟩
    have hid := other_id h hieee hmem he' (covering_not_ieee hne hkey)
    exact ⟨e', (hs.entities e').mpr ⟨he', hid⟩, hkey⟩
  refine ⟨hs.devices.trans hi.devices, (List.nodup_cons.mp hi.ids).2, ?_, ?_, ?_, ?_, ?_, ?_⟩
  · intro e' he'
    obtain ⟨hs', hs₁, hentry⟩ := hi.listed e' (List.mem_cons_of_mem _ he')
    exact ⟨(hs.entities e').mpr ⟨hs', hi.id_ne he'⟩, hs₁, hentry⟩
  · intro e' he' hieee'
    obtain ⟨hold, hid⟩ := (hs.entities e').mp he'
    rcases List.mem_cons.mp (hi.clean e' hold hieee') with rfl | hlisted
    · exact absurd rfl hid
    · exact hlisted
  · intro e' he' hnot
    exact (hs.entities e').mpr ⟨hi.untouched e' he' hnot, other_id h hieee hmem₁ he' hnot⟩
  · intro e₁ he₁ e₂ he₂ hkey
    exact hi.distinct e₁ ((hs.entities e₁).mp he₁).1 e₂ ((hs.entities e₂).mp he₂).1 hkey
  · exact fun e' he' => hi.sources e' ((hs.entities e').mp he').1
  · intro e' he' hieee'
    rcases hi.covered e' he' hieee' with hlisted | hcovered
    · rcases List.mem_cons.mp hlisted with rfl | hlisted
      · exact .inr (hcovering htaken)
      · exact .inl hlisted
    · exact .inr (hcovering hcovered)

theorem rekey (h : r.Documented) (hne : l.lower entry.entryId ≠ l.lower entry.ieee)
    (hi : EntitiesAt r l entry s₁ s (e :: rest)) (hieee : e.IsIeee l entry)
    (hfree : ∀ e' ∈ r.entities s, e'.key ≠ e.migratedKey l entry)
    (hs : r.Rekeyed e (entry.newId l e.uniqueId) s s') : EntitiesAt r l entry s₁ s' rest := by
  obtain ⟨hmem, hmem₁, -⟩ := hi.listed e (by simp)
  let rewritten := e.rekey (entry.newId l e.uniqueId)
  have hkey : rewritten.key = e.migratedKey l entry := rfl
  have hnew : rewritten ∈ r.entities s' := (hs.entities rewritten).mpr (.inr rfl)
  refine ⟨hs.devices.trans hi.devices, (List.nodup_cons.mp hi.ids).2, ?_, ?_, ?_, ?_, ?_, ?_⟩
  · intro e' he'
    obtain ⟨hs', hs₁, hentry⟩ := hi.listed e' (List.mem_cons_of_mem _ he')
    exact ⟨(hs.entities e').mpr (.inl ⟨hs', hi.id_ne he'⟩), hs₁, hentry⟩
  · intro e' he' hieee'
    rcases (hs.entities e').mp he' with ⟨hold, hid⟩ | rfl
    · rcases List.mem_cons.mp (hi.clean e' hold hieee') with rfl | hlisted
      · exact absurd rfl hid
      · exact hlisted
    · exact absurd hieee' (covering_not_ieee hne hkey)
  · intro e' he' hnot
    exact (hs.entities e').mpr (.inl ⟨hi.untouched e' he' hnot, other_id h hieee hmem₁ he' hnot⟩)
  · intro e₁ he₁ e₂ he₂ hsame
    rcases (hs.entities e₁).mp he₁ with ⟨hold₁, -⟩ | rfl
    · rcases (hs.entities e₂).mp he₂ with ⟨hold₂, -⟩ | rfl
      · exact hi.distinct e₁ hold₁ e₂ hold₂ hsame
      · exact absurd (hsame.trans hkey) (hfree e₁ hold₁)
    · rcases (hs.entities e₂).mp he₂ with ⟨hold₂, -⟩ | rfl
      · exact absurd (hsame.symm.trans hkey) (hfree e₂ hold₂)
      · rfl
  · intro e' he'
    rcases (hs.entities e').mp he' with ⟨hold, -⟩ | rfl
    · exact hi.sources e' hold
    · exact .inr ⟨e, hmem₁, hieee, rfl⟩
  · intro e' he' hieee'
    rcases hi.covered e' he' hieee' with hlisted | ⟨e₂, he₂, hcovers⟩
    · rcases List.mem_cons.mp hlisted with rfl | hlisted
      · exact .inr ⟨rewritten, hnew, hkey⟩
      · exact .inl hlisted
    · have hid := other_id h hieee hmem he₂ (covering_not_ieee hne hcovers)
      exact .inr ⟨e₂, (hs.entities e₂).mpr (.inl ⟨he₂, hid⟩), hcovers⟩

theorem run (h : r.Documented) (hne : l.lower entry.entryId ≠ l.lower entry.ieee)
    (hi : EntitiesAt r l entry s₁ s rest) :
    ∃ s', migrateEntities r l entry s rest = .ok s' ∧ EntitiesAt r l entry s₁ s' [] := by
  induction rest generalizing s with
  | nil => exact ⟨s, rfl, hi⟩
  | cons e rest ih =>
    obtain ⟨hmem, -, hentry⟩ := hi.listed e (by simp)
    cases hprefix : entry.hasPrefix l e.uniqueId with
    | false =>
      obtain ⟨s', hs', hdone⟩ := ih (hi.skip hprefix)
      exact ⟨s', by simpa [migrateEntities, hprefix] using hs', hdone⟩
    | true =>
      have htaken := h.getEntityId s e.domain e.platform (entry.newId l e.uniqueId)
      cases hget : (r.getEntityId s e.domain e.platform (entry.newId l e.uniqueId)).isSome with
      | true =>
        obtain ⟨s₂, hcall, hs₂⟩ := h.remove s e hmem
        obtain ⟨s', hs', hdone⟩ := ih (hi.remove h hne ⟨hentry, hprefix⟩ (htaken.mp hget) hs₂)
        exact ⟨s', by simpa [migrateEntities, hprefix, hget, hcall, bind, Except.bind] using hs', hdone⟩
      | false =>
        have hfree : ∀ e' ∈ r.entities s, e'.key ≠ e.migratedKey l entry := by
          intro e' he' hkey
          have hsome := htaken.mpr ⟨e', he', hkey⟩
          rw [hget] at hsome
          simp at hsome
        obtain ⟨s₂, hcall, hs₂⟩ := h.newUniqueId s e (entry.newId l e.uniqueId) hmem hfree
        obtain ⟨s', hs', hdone⟩ := ih (hi.rekey h hne ⟨hentry, hprefix⟩ hfree hs₂)
        exact ⟨s', by simpa [migrateEntities, hprefix, hget, hcall, bind, Except.bind] using hs', hdone⟩

theorem run_clean {rows : List RegistryEntry}
    (hclean : ∀ e ∈ rows, entry.hasPrefix l e.uniqueId = false) : migrateEntities r l entry s rows = .ok s := by
  induction rows with
  | nil => rfl
  | cons e rows ih =>
    rw [migrateEntities, if_pos (hclean e (by simp))]
    exact ih fun e' he' => hclean e' (by simp [he'])

end EntitiesAt

/-! The whole migration. -/

/-- No row of this entity's device was lost: the device is still the entry's, if it ever was. -/
def StaysAttached {σ : Type} (r : Registries σ) (entry : LockEntry) (s s' : σ) (e : RegistryEntry) : Prop :=
  ∀ id, e.deviceId = some id → ¬ r.Left entry s s' id

/-- The migration has taken the registries from `s` to `s'`. -/
structure Migrated {σ : Type} (r : Registries σ) (l : StrLower) (entry : LockEntry) (s s' : σ) : Prop where
  devices : ∀ d ∈ r.devices s', entry.entryId ∈ d.configEntries → ¬ d.CarriesIeee l entry
  entities : ∀ e ∈ r.entities s', ¬ e.IsIeee l entry
  distinct : ∀ e ∈ r.entities s', ∀ e' ∈ r.entities s', e.key = e'.key → e = e'
  untouched : ∀ e ∈ r.entities s, ¬ e.IsIeee l entry → StaysAttached r entry s s' e → e ∈ r.entities s'
  survives : ∀ e ∈ r.entities s, e.IsIeee l entry → StaysAttached r entry s s' e →
    ∃ e' ∈ r.entities s', e'.key = e.migratedKey l entry ∧ ∃ e₀ ∈ r.entities s,
      e' = { e₀ with uniqueId := e'.uniqueId, deviceId := e'.deviceId } ∧
        (e₀.key = e.migratedKey l entry ∨ e₀.IsIeee l entry ∧ e₀.domain = e.domain ∧
          e₀.platform = e.platform ∧ entry.suffix l e₀.uniqueId = entry.suffix l e.uniqueId)
  foreign : ∀ d' ∈ r.devices s', ∃ d ∈ r.devices s, d.id = d'.id ∧
    ∀ i, i.domain ≠ registryDomain → (i ∈ d'.identifiers ↔ i ∈ d.identifiers)
  present : ∀ d ∈ r.devices s, (∃ d' ∈ r.devices s', d'.id = d.id) ∨
    d.CarriesIeee l entry ∧ ∀ c ∈ d.configEntries, c = entry.entryId
  others : ∀ d ∈ r.devices s, entry.entryId ∉ d.configEntries → d ∈ r.devices s'
  owner : (∃ d ∈ r.devices s, entry.entryId ∈ d.configEntries ∧
      (entry.ownKey ∈ d.identifiers ∨ d.CarriesIeee l entry)) →
    ∃ d' ∈ r.devices s', entry.entryId ∈ d'.configEntries ∧ entry.ownKey ∈ d'.identifiers
  again : migrateToEntryIdKeys r l entry s' = .ok s'

section

variable {σ : Type} {r : Registries σ} {l : StrLower} {entry : LockEntry} {s s₁ s' : σ}

theorem DevicesKept.distinct (h : r.Documented) (hk : DevicesKept r l entry s s₁)
    (hdistinct : ∀ e ∈ r.entities s, ∀ e' ∈ r.entities s, e.key = e'.key → e = e') :
    ∀ e ∈ r.entities s₁, ∀ e' ∈ r.entities s₁, e.key = e'.key → e = e' := by
  intro e he e' he' hkey
  obtain ⟨e₀, he₀, hsource⟩ := hk.sources e he
  obtain ⟨e₀', he₀', hsource'⟩ := hk.sources e' he'
  have hkey₀ : e₀.key = e₀'.key := by
    rw [hsource, hsource'] at hkey
    exact hkey
  have hid : e.entityId = e'.entityId := by
    rw [hsource, hsource', hdistinct e₀ he₀ e₀' he₀' hkey₀]
  exact h.entity_eq he he' hid

/-- The row that covers a stale one was there under the new key, or was rewritten to it. -/
theorem EntitiesAt.survivor (hk : DevicesKept r l entry s s₁) (hi : EntitiesAt r l entry s₁ s' [])
    {e : RegistryEntry} (he : e ∈ r.entities s₁) (hieee : e.IsIeee l entry) :
    ∃ e' ∈ r.entities s', e'.key = e.migratedKey l entry ∧ ∃ e₀ ∈ r.entities s,
      e' = { e₀ with uniqueId := e'.uniqueId, deviceId := e'.deviceId } ∧
        (e₀.key = e.migratedKey l entry ∨ e₀.IsIeee l entry ∧ e₀.domain = e.domain ∧
          e₀.platform = e.platform ∧ entry.suffix l e₀.uniqueId = entry.suffix l e.uniqueId) := by
  rcases hi.covered e he hieee with hlisted | ⟨e', he', hkey⟩
  · simp at hlisted
  · refine ⟨e', he', hkey, ?_⟩
    rcases hi.sources e' he' with hold | ⟨e₁, he₁, hieee₁, hrekeyed⟩
    · obtain ⟨e₀, he₀, hsource⟩ := hk.sources e' hold
      refine ⟨e₀, he₀, ?_, .inl ?_⟩
      · rw [hsource]
      · rw [hsource] at hkey
        exact hkey
    · obtain ⟨e₀, he₀, hsource⟩ := hk.sources e₁ he₁
      have hkeys := hkey
      rw [hrekeyed] at hkeys
      obtain ⟨hdomain, hrest⟩ := Prod.mk.inj hkeys
      obtain ⟨hplatform, hnew⟩ := Prod.mk.inj hrest
      have hdomain₀ : e₁.domain = e₀.domain := by rw [hsource]
      have hplatform₀ : e₁.platform = e₀.platform := by rw [hsource]
      have hunique₀ : e₁.uniqueId = e₀.uniqueId := by rw [hsource]
      refine ⟨e₀, he₀, ?_, .inr ⟨?_, hdomain₀.symm.trans hdomain, hplatform₀.symm.trans hplatform, ?_⟩⟩
      · rw [hrekeyed, hsource]
        rfl
      · rw [hsource] at hieee₁
        exact hieee₁
      · rw [← hunique₀]
        exact suffix_of_newId hnew

theorem again_of_clean (hpairs : ∀ d ∈ r.devices s, entry.entryId ∈ d.configEntries → ∀ i ∈ d.identifiers, i.IsPair)
    (hdevices : ∀ d ∈ r.devices s, entry.entryId ∈ d.configEntries → ¬ d.CarriesIeee l entry)
    (hentities : ∀ e ∈ r.entities s, ¬ e.IsIeee l entry) : migrateToEntryIdKeys r l entry s = .ok s := by
  have hlisted : ∀ d ∈ entriesForConfigEntry r entry s, d ∈ r.devices s ∧ entry.entryId ∈ d.configEntries := by
    intro d hd
    simpa [entriesForConfigEntry, List.mem_filter] using hd
  have hloop : ∀ owner, migrateDevices r l entry s owner (entriesForConfigEntry r entry s) = .ok s := by
    intro owner
    refine DevicesAt.run_clean ?_ ?_
    · exact fun d hd => hpairs d (hlisted d hd).1 (hlisted d hd).2
    · exact fun d hd => hdevices d (hlisted d hd).1 (hlisted d hd).2
  simp only [migrateToEntryIdKeys, hloop, bind, Except.bind]
  refine EntitiesAt.run_clean fun e he => ?_
  obtain ⟨hmem, hentry⟩ : e ∈ r.entities s ∧ e.configEntryId = some entry.entryId := by
    simpa [rowsForConfigEntry, List.mem_filter] using he
  by_contra hprefix
  exact hentities e hmem ⟨hentry, by simpa using hprefix⟩

end

/-- The migration never fails, and what it leaves is migrated, whatever the
registries held before. -/
theorem migration_total {σ : Type} (r : Registries σ) (h : r.Documented) (l : StrLower) (entry : LockEntry)
    (hne : l.lower entry.entryId ≠ l.lower entry.ieee) (s : σ)
    (hpairs : ∀ d ∈ r.devices s, entry.entryId ∈ d.configEntries → ∀ i ∈ d.identifiers, i.IsPair)
    (hown : ∀ d ∈ r.devices s, entry.ownKey ∈ d.identifiers → entry.entryId ∈ d.configEntries)
    (hdistinct : ∀ e ∈ r.entities s, ∀ e' ∈ r.entities s, e.key = e'.key → e = e') :
    ∃ s', migrateToEntryIdKeys r l entry s = .ok s' ∧ Migrated r l entry s s' := by
  obtain ⟨s₁, owner, hloop₁, hdone₁⟩ := (DevicesAt.start (l := l) h hpairs hown).run h hne
  obtain ⟨s', hloop', hdone'⟩ :=
    (EntitiesAt.start (l := l) h (hdone₁.kept.distinct h hdistinct)).run h hne
  have hleft : ∀ id, r.Left entry s s₁ id → r.Left entry s s' id := by
    rintro id ⟨d, hd, hid, hentry, hall⟩
    exact ⟨d, hd, hid, hentry, by rwa [hdone'.devices]⟩
  have hrows : ∀ e ∈ r.entities s, StaysAttached r entry s s' e → e ∈ r.entities s₁ :=
    fun e he hstays => hdone₁.kept.rows e he fun id hid hwas => hstays id hid (hleft id hwas)
  have hdevices : ∀ d ∈ r.devices s', entry.entryId ∈ d.configEntries → ¬ d.CarriesIeee l entry := by
    intro d hd hentry
    rw [hdone'.devices] at hd
    exact (hdone₁.clean d hd hentry).resolve_left (by simp)
  have hentities : ∀ e ∈ r.entities s', ¬ e.IsIeee l entry := by
    intro e he hieee
    simpa using hdone'.clean e he hieee
  refine ⟨s', ?_, hdevices, hentities, hdone'.distinct, ?_, ?_, ?_, ?_, ?_, ?_, ?_⟩
  · simpa [migrateToEntryIdKeys, hloop₁, bind, Except.bind] using hloop'
  · exact fun e he hnot hstays => hdone'.untouched e (hrows e he hstays) hnot
  · exact fun e he hieee hstays => hdone'.survivor hdone₁.kept (hrows e he hstays) hieee
  · rw [hdone'.devices]
    exact hdone₁.kept.traced
  · rw [hdone'.devices]
    exact hdone₁.kept.present
  · rw [hdone'.devices]
    exact hdone₁.kept.others
  · rintro ⟨d, hd, hentry, hkeyed⟩
    rw [hdone'.devices]
    cases howner : owner with
    | some o =>
      obtain ⟨d', hd', -, hentry', hkey⟩ := hdone₁.owned o howner
      exact ⟨d', hd', hentry', hkey⟩
    | none =>
      obtain ⟨hnot, hlisted⟩ := hdone₁.found howner d hd hentry
      rcases hkeyed with hkey | hieee
      · exact absurd hkey hnot
      · simpa using hlisted hieee
  · refine again_of_clean ?_ hdevices hentities
    rw [hdone'.devices]
    exact hdone₁.pairs

end OnestiLock
