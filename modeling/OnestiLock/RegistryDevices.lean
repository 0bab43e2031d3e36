import OnestiLock.RegistryMigration

/-! The device half of the migration: one device keeps the entry, under the
entry's id, and nothing of other integrations moves. -/

namespace OnestiLock

/-- Our identifier with the IEEE address, in any case. -/
def Identifier.IsIeee (l : StrLower) (entry : LockEntry) (i : Identifier) : Prop :=
  i.domain = registryDomain ∧ ∃ key, i.rest.head? = some key ∧ l.lower key = l.lower entry.ieee

def Identifier.IsPair (i : Identifier) : Prop := i.domain = registryDomain → ∃ key, i.rest = [key]

def DeviceEntry.CarriesIeee (l : StrLower) (entry : LockEntry) (d : DeviceEntry) : Prop :=
  ∃ i ∈ d.identifiers, i.IsIeee l entry

section

variable {σ : Type} {r : Registries σ} {l : StrLower} {entry : LockEntry}

theorem isStale_of_pair (l : StrLower) (entry : LockEntry) {i : Identifier} (hi : i.IsPair) :
    ∃ b, entry.isStale l i = .ok b ∧ (b = true ↔ i.IsIeee l entry) := by
  by_cases hd : i.domain = registryDomain
  · obtain ⟨key, hkey⟩ := hi hd
    refine ⟨l.lower key == l.lower entry.ieee, by simp [LockEntry.isStale, hd, hkey], ?_⟩
    simp [Identifier.IsIeee, hd, hkey]
  · refine ⟨false, by simp [LockEntry.isStale, hd], ?_⟩
    simp [Identifier.IsIeee, hd]

theorem stale_of_pairs (l : StrLower) (entry : LockEntry) {ids : List Identifier} (hids : ∀ i ∈ ids, i.IsPair) :
    ∃ stale, entry.stale l ids = .ok stale ∧ ∀ i, i ∈ stale ↔ i ∈ ids ∧ i.IsIeee l entry := by
  induction ids with
  | nil => exact ⟨[], rfl, by simp⟩
  | cons j ids ih =>
    obtain ⟨b, hb, hiff⟩ := isStale_of_pair l entry (hids j (by simp))
    obtain ⟨stale, hstale, hmem⟩ := ih (fun i hi => hids i (by simp [hi]))
    refine ⟨if b then j :: stale else stale, ?_, ?_⟩
    · simp only [LockEntry.stale, hb, hstale]
      rfl
    · intro i
      cases b with
      | true =>
        have hj := hiff.mp rfl
        simp only [if_true, List.mem_cons, hmem i]
        constructor
        · rintro (rfl | ⟨hi, hieee⟩)
          · exact ⟨.inl rfl, hj⟩
          · exact ⟨.inr hi, hieee⟩
        · rintro ⟨rfl | hi, hieee⟩
          · exact .inl rfl
          · exact .inr ⟨hi, hieee⟩
      | false =>
        have hj : ¬ j.IsIeee l entry := fun h => by simpa using hiff.mpr h
        simp only [Bool.false_eq_true, if_false, List.mem_cons, hmem i]
        constructor
        · rintro ⟨hi, hieee⟩
          exact ⟨.inr hi, hieee⟩
        · rintro ⟨rfl | hi, hieee⟩
          · exact absurd hieee hj
          · exact ⟨hi, hieee⟩

theorem ownKey_not_ieee (hne : l.lower entry.entryId ≠ l.lower entry.ieee) :
    ¬ entry.ownKey.IsIeee l entry := by
  rintro ⟨-, key, hkey, hlower⟩
  obtain rfl : entry.entryId = key := by simpa [LockEntry.ownKey] using hkey
  exact hne hlower

theorem mem_newIdentifiers {d : DeviceEntry} {stale : List Identifier}
    (hstale : ∀ i, i ∈ stale ↔ i ∈ d.identifiers ∧ i.IsIeee l entry) {i : Identifier} :
    i ∈ newIdentifiers entry d stale ↔ i ∈ d.identifiers ∧ ¬ i.IsIeee l entry ∨ i = entry.ownKey := by
  simp only [newIdentifiers, List.mem_append, List.mem_filter, List.mem_singleton, decide_eq_true_eq,
    hstale i]
  tauto

namespace Registries.Documented

theorem device_eq (h : r.Documented) {s : σ} {d d' : DeviceEntry} (hd : d ∈ r.devices s)
    (hd' : d' ∈ r.devices s) (hid : d.id = d'.id) : d = d' :=
  List.inj_on_of_nodup_map (h.device_ids s) hd hd' hid

theorem entity_eq (h : r.Documented) {s : σ} {e e' : RegistryEntry} (he : e ∈ r.entities s)
    (he' : e' ∈ r.entities s) (hid : e.entityId = e'.entityId) : e = e' :=
  List.inj_on_of_nodup_map (h.entity_ids s) he he' hid

end Registries.Documented

/-- A device of the entry that no longer is one. -/
def Registries.Left (r : Registries σ) (entry : LockEntry) (s₀ s : σ) (id : String) : Prop :=
  ∃ d ∈ r.devices s₀, d.id = id ∧ entry.entryId ∈ d.configEntries ∧
    ∀ d' ∈ r.devices s, d'.id = id → entry.entryId ∉ d'.configEntries

/-- What the device loop leaves of the registries it began with. -/
structure DevicesKept (r : Registries σ) (l : StrLower) (entry : LockEntry) (s₀ s : σ) : Prop where
  traced : ∀ d' ∈ r.devices s, ∃ d ∈ r.devices s₀, d.id = d'.id ∧
    ∀ i, i.domain ≠ registryDomain → (i ∈ d'.identifiers ↔ i ∈ d.identifiers)
  others : ∀ d ∈ r.devices s₀, entry.entryId ∉ d.configEntries → d ∈ r.devices s
  present : ∀ d ∈ r.devices s₀, (∃ d' ∈ r.devices s, d'.id = d.id) ∨
    d.CarriesIeee l entry ∧ ∀ c ∈ d.configEntries, c = entry.entryId
  rows : ∀ e ∈ r.entities s₀, (∀ id, e.deviceId = some id → ¬ r.Left entry s₀ s id) → e ∈ r.entities s
  sources : ∀ e' ∈ r.entities s, ∃ e ∈ r.entities s₀, e' = { e with deviceId := e'.deviceId }

/-- Where the device loop stands: `rest` is still to come. -/
structure DevicesAt (r : Registries σ) (l : StrLower) (entry : LockEntry) (s₀ s : σ)
    (owner : Option DeviceEntry) (rest : List DeviceEntry) : Prop where
  kept : DevicesKept r l entry s₀ s
  ids : (rest.map DeviceEntry.id).Nodup
  listed : ∀ d ∈ rest, d ∈ r.devices s ∧ d ∈ r.devices s₀ ∧ entry.entryId ∈ d.configEntries
  pairs : ∀ d ∈ r.devices s, entry.entryId ∈ d.configEntries → ∀ i ∈ d.identifiers, i.IsPair
  clean : ∀ d ∈ r.devices s, entry.entryId ∈ d.configEntries → d ∈ rest ∨ ¬ d.CarriesIeee l entry
  unowned : owner = none → ∀ d ∈ r.devices s, entry.ownKey ∉ d.identifiers
  found : owner = none → ∀ d ∈ r.devices s₀, entry.entryId ∈ d.configEntries →
    entry.ownKey ∉ d.identifiers ∧ (d.CarriesIeee l entry → d ∈ rest)
  owned : ∀ o, owner = some o → ∃ d ∈ r.devices s, d.id = o.id ∧ entry.entryId ∈ d.configEntries ∧
    entry.ownKey ∈ d.identifiers

namespace DevicesAt

variable {s₀ s s' : σ} {owner : Option DeviceEntry} {d : DeviceEntry} {rest : List DeviceEntry}

theorem skip (hi : DevicesAt r l entry s₀ s owner (d :: rest)) (hd : ¬ d.CarriesIeee l entry) :
    DevicesAt r l entry s₀ s owner rest where
  kept := hi.kept
  ids := (List.nodup_cons.mp hi.ids).2
  listed d' hd' := hi.listed d' (List.mem_cons_of_mem _ hd')
  pairs := hi.pairs
  clean d' hd' hentry := by
    rcases hi.clean d' hd' hentry with hmem | hclean
    · rcases List.mem_cons.mp hmem with rfl | hmem
      · exact .inr hd
      · exact .inl hmem
    · exact .inr hclean
  unowned := hi.unowned
  found howner d' hd' hentry := by
    obtain ⟨hkey, hlisted⟩ := hi.found howner d' hd' hentry
    refine ⟨hkey, fun hieee => ?_⟩
    rcases List.mem_cons.mp (hlisted hieee) with rfl | hmem
    · exact absurd hieee hd
    · exact hmem
  owned := hi.owned

theorem id_ne (hi : DevicesAt r l entry s₀ s owner (d :: rest)) {d' : DeviceEntry} (hd' : d' ∈ rest) :
    d'.id ≠ d.id := by
  intro he
  have hnot := (List.nodup_cons.mp hi.ids).1
  rw [← he] at hnot
  exact hnot (List.mem_map_of_mem hd')

theorem release {o : DeviceEntry} (h : r.Documented) (hi : DevicesAt r l entry s₀ s owner (d :: rest))
    (hd : d.CarriesIeee l entry) (howner : owner = some o) (hne : o.id ≠ d.id)
    (hs : r.Released d.id entry.entryId s s') : DevicesAt r l entry s₀ s' owner rest := by
  obtain ⟨hmem, hmem₀, hentry⟩ := hi.listed d (by simp)
  have hgone : ∀ d' ∈ r.devices s', d'.id = d.id → entry.entryId ∉ d'.configEntries := by
    intro d' hd' hid
    obtain ⟨d₁, -, -, rfl⟩ := hs.only d' hd' hid
    simp
  have hleft : r.Left entry s₀ s' d.id := ⟨d, hmem₀, rfl, hentry, hgone⟩
  refine ⟨⟨?_, ?_, ?_, ?_, ?_⟩, (List.nodup_cons.mp hi.ids).2, ?_, ?_, ?_,
    by simp [howner], by simp [howner], ?_⟩
  · intro d' hd'
    by_cases hid : d'.id = d.id
    · obtain ⟨d₁, hd₁, hid₁, rfl⟩ := hs.only d' hd' hid
      exact hi.kept.traced d₁ hd₁
    · exact hi.kept.traced d' ((hs.others d' hid).mp hd')
  · intro d₀ hd₀ hnot
    refine (hs.others d₀ ?_).mpr (hi.kept.others d₀ hd₀ hnot)
    intro hid
    rw [h.device_eq hd₀ hmem₀ hid] at hnot
    exact hnot hentry
  · intro d₀ hd₀
    by_cases hid : d₀.id = d.id
    · obtain rfl := h.device_eq hd₀ hmem₀ hid
      by_cases hother : ∃ c ∈ d₀.configEntries, c ≠ entry.entryId
      · exact .inl ⟨_, hs.left d₀ hmem rfl hother, rfl⟩
      · push Not at hother
        exact .inr ⟨hd, hother⟩
    · rcases hi.kept.present d₀ hd₀ with ⟨d', hd', hid'⟩ | hlost
      · exact .inl ⟨d', (hs.others d' (by rwa [hid'])).mpr hd', hid'⟩
      · exact .inr hlost
  · intro e he hnot
    have hkept : e ∈ r.entities s := by
      refine hi.kept.rows e he fun id hid hwas => hnot id hid ?_
      obtain ⟨d₀, hd₀, hid₀, hentry₀, hall⟩ := hwas
      refine ⟨d₀, hd₀, hid₀, hentry₀, fun d' hd' hid' => ?_⟩
      by_cases hsame : d'.id = d.id
      · exact hgone d' hd' hsame
      · exact hall d' ((hs.others d' hsame).mp hd') hid'
    exact hs.kept e hkept fun hid => hnot d.id hid hleft
  · intro e' he'
    obtain ⟨e, he, heq⟩ := hs.rows e' he'
    obtain ⟨e₀, he₀, hsource⟩ := hi.kept.sources e he
    refine ⟨e₀, he₀, ?_⟩
    rcases heq with rfl | ⟨-, rfl⟩
    · exact hsource
    · rw [hsource]
  · intro d' hd'
    obtain ⟨hs', hs₀, hentry'⟩ := hi.listed d' (List.mem_cons_of_mem _ hd')
    exact ⟨(hs.others d' (hi.id_ne hd')).mpr hs', hs₀, hentry'⟩
  · intro d' hd' hentry'
    have hid : d'.id ≠ d.id := fun hid => hgone d' hd' hid hentry'
    exact hi.pairs d' ((hs.others d' hid).mp hd') hentry'
  · intro d' hd' hentry'
    have hid : d'.id ≠ d.id := fun hid => hgone d' hd' hid hentry'
    rcases hi.clean d' ((hs.others d' hid).mp hd') hentry' with hlisted | hclean
    · rcases List.mem_cons.mp hlisted with rfl | hlisted
      · exact absurd rfl hid
      · exact .inl hlisted
    · exact .inr hclean
  · intro o' ho'
    obtain ⟨d', hd', hid', hentry', hkey⟩ := hi.owned o' ho'
    obtain rfl := Option.some.inj (howner.symm.trans ho')
    exact ⟨d', (hs.others d' (by rwa [hid'])).mpr hd', hid', hentry', hkey⟩

theorem reidentify {o : DeviceEntry} {stale : List Identifier} (h : r.Documented)
    (hne : l.lower entry.entryId ≠ l.lower entry.ieee)
    (hi : DevicesAt r l entry s₀ s owner (d :: rest))
    (hstale : ∀ i, i ∈ stale ↔ i ∈ d.identifiers ∧ i.IsIeee l entry) (hid : o.id = d.id)
    (hs : r.Reidentified d (newIdentifiers entry d stale) s s') :
    DevicesAt r l entry s₀ s' (some o) rest := by
  obtain ⟨hmem, hmem₀, hentry⟩ := hi.listed d (by simp)
  let updated : DeviceEntry := { d with identifiers := newIdentifiers entry d stale }
  have hupdated : updated ∈ r.devices s' := (hs.devices updated).mpr (.inr rfl)
  have hclean : ¬ updated.CarriesIeee l entry := by
    rintro ⟨i, hmem', hieee⟩
    rcases (mem_newIdentifiers hstale).mp hmem' with ⟨-, hnot⟩ | rfl
    · exact hnot hieee
    · exact ownKey_not_ieee hne hieee
  refine ⟨⟨?_, ?_, ?_, ?_, ?_⟩, (List.nodup_cons.mp hi.ids).2, ?_, ?_, ?_, by simp, by simp, ?_⟩
  · intro d' hd'
    rcases (hs.devices d').mp hd' with ⟨hold, -⟩ | rfl
    · exact hi.kept.traced d' hold
    · obtain ⟨d₀, hd₀, hid₀, hsame⟩ := hi.kept.traced d hmem
      refine ⟨d₀, hd₀, hid₀, fun i hforeign => ?_⟩
      rw [← hsame i hforeign]
      have hown : i ≠ entry.ownKey := by
        rintro rfl
        exact hforeign rfl
      have hnot : ¬ i.IsIeee l entry := fun hieee => hforeign hieee.1
      constructor
      · intro hi'
        rcases (mem_newIdentifiers hstale).mp hi' with ⟨hold, -⟩ | rfl
        · exact hold
        · exact absurd rfl hown
      · exact fun hold => (mem_newIdentifiers hstale).mpr (.inl ⟨hold, hnot⟩)
  · intro d₀ hd₀ hnot
    refine (hs.devices d₀).mpr (.inl ⟨hi.kept.others d₀ hd₀ hnot, ?_⟩)
    intro hsame
    rw [h.device_eq hd₀ hmem₀ hsame] at hnot
    exact hnot hentry
  · intro d₀ hd₀
    rcases hi.kept.present d₀ hd₀ with ⟨d', hd', hid'⟩ | hlost
    · by_cases hsame : d'.id = d.id
      · exact .inl ⟨updated, hupdated, hsame.symm.trans hid'⟩
      · exact .inl ⟨d', (hs.devices d').mpr (.inl ⟨hd', hsame⟩), hid'⟩
    · exact .inr hlost
  · intro e he hnot
    rw [hs.entities]
    refine hi.kept.rows e he fun id hid' hwas => hnot id hid' ?_
    obtain ⟨d₀, hd₀, hid₀, hentry₀, hall⟩ := hwas
    refine ⟨d₀, hd₀, hid₀, hentry₀, fun d' hd' hid' => ?_⟩
    rcases (hs.devices d').mp hd' with ⟨hold, -⟩ | rfl
    · exact hall d' hold hid'
    · exact hall d hmem hid'
  · intro e' he'
    rw [hs.entities] at he'
    exact hi.kept.sources e' he'
  · intro d' hd'
    obtain ⟨hs', hs₀, hentry'⟩ := hi.listed d' (List.mem_cons_of_mem _ hd')
    exact ⟨(hs.devices d').mpr (.inl ⟨hs', hi.id_ne hd'⟩), hs₀, hentry'⟩
  · intro d' hd' hentry' i hi'
    rcases (hs.devices d').mp hd' with ⟨hold, -⟩ | rfl
    · exact hi.pairs d' hold hentry' i hi'
    · rcases (mem_newIdentifiers hstale).mp hi' with ⟨hold, -⟩ | rfl
      · exact hi.pairs d hmem hentry i hold
      · exact fun _ => ⟨entry.entryId, rfl⟩
  · intro d' hd' hentry'
    rcases (hs.devices d').mp hd' with ⟨hold, hsame⟩ | rfl
    · rcases hi.clean d' hold hentry' with hlisted | hclean'
      · rcases List.mem_cons.mp hlisted with rfl | hlisted
        · exact absurd rfl hsame
        · exact .inl hlisted
      · exact .inr hclean'
    · exact .inr hclean
  · intro o' ho'
    obtain rfl := Option.some.inj ho'
    exact ⟨updated, hupdated, hid.symm, hentry, (mem_newIdentifiers hstale).mpr (.inr rfl)⟩

theorem collides_not {stale : List Identifier} (h : r.Documented)
    (hi : DevicesAt r l entry s₀ s owner (d :: rest))
    (howner : ∀ o, owner = some o → o.id = d.id)
    (hstale : ∀ i, i ∈ stale ↔ i ∈ d.identifiers ∧ i.IsIeee l entry) :
    ∀ d' ∈ r.devices s, d'.id ≠ d.id → ∀ i ∈ newIdentifiers entry d stale,
      i ∈ d'.identifiers → i ∈ d.identifiers := by
  intro d' hd' _ i hi' hmem
  rcases (mem_newIdentifiers hstale).mp hi' with ⟨hold, -⟩ | rfl
  · exact hold
  · cases ho : owner with
    | none => exact absurd hmem (hi.unowned ho d' hd')
    | some o =>
      obtain ⟨d₁, hd₁, hid, -, hkey⟩ := hi.owned o ho
      obtain rfl := h.device_eq hd₁ (hi.listed d (by simp)).1 (hid.trans (howner o ho))
      exact hkey

theorem run (h : r.Documented) (hne : l.lower entry.entryId ≠ l.lower entry.ieee)
    (hi : DevicesAt r l entry s₀ s owner rest) : ∃ s' owner',
      migrateDevices r l entry s owner rest = .ok s' ∧ DevicesAt r l entry s₀ s' owner' [] := by
  induction rest generalizing s owner with
  | nil => exact ⟨s, owner, rfl, hi⟩
  | cons d rest ih =>
    obtain ⟨hmem, -, hentry⟩ := hi.listed d (by simp)
    obtain ⟨stale, hstale, hiff⟩ := stale_of_pairs l entry (hi.pairs d hmem hentry)
    by_cases hempty : stale = []
    · have hclean : ¬ d.CarriesIeee l entry := by
        rintro ⟨i, hi', hieee⟩
        have hnil := (hiff i).mpr ⟨hi', hieee⟩
        simp [hempty] at hnil
      obtain ⟨s', owner', hs', hdone⟩ := ih (hi.skip hclean)
      refine ⟨s', owner', ?_, hdone⟩
      rw [migrateDevices, hstale]
      simpa [hempty, bind, Except.bind] using hs'
    · have hcarries : d.CarriesIeee l entry := by
        obtain ⟨i, hi'⟩ := List.exists_mem_of_ne_nil stale hempty
        exact ⟨i, (hiff i).mp hi'⟩
      have hnonempty : stale.isEmpty = false := by simpa using hempty
      cases ho : owner with
      | none =>
        obtain ⟨s₁, hcall, hs₁⟩ := h.newIdentifiers s d (newIdentifiers entry d stale) hmem
          (hi.collides_not h (by simp [ho]) hiff)
        let updated : DeviceEntry := { d with identifiers := newIdentifiers entry d stale }
        have hnext : DevicesAt r l entry s₀ s₁ (some updated) rest := hi.reidentify h hne hiff rfl hs₁
        obtain ⟨s', owner', hs', hdone⟩ := ih hnext
        refine ⟨s', owner', ?_, hdone⟩
        rw [migrateDevices, hstale]
        simpa [hnonempty, hcall, bind, Except.bind] using hs'
      | some o =>
        by_cases hid : o.id = d.id
        · have howner : ∀ o', owner = some o' → o'.id = d.id := by
            intro o' ho'
            obtain rfl := Option.some.inj (ho.symm.trans ho')
            exact hid
          obtain ⟨s₁, hcall, hs₁⟩ := h.newIdentifiers s d (newIdentifiers entry d stale) hmem
            (hi.collides_not h howner hiff)
          obtain ⟨s', owner', hs', hdone⟩ := ih (hi.reidentify h hne hiff hid hs₁)
          refine ⟨s', owner', ?_, hdone⟩
          rw [migrateDevices, hstale]
          simpa [hnonempty, hid, hcall, bind, Except.bind] using hs'
        · obtain ⟨s₁, hcall, hs₁⟩ := h.removeConfigEntry s d entry.entryId hmem
          have hreleased := hi.release h hcarries ho hid hs₁
          obtain ⟨s', owner', hs', hdone⟩ := ih (ho ▸ hreleased)
          refine ⟨s', owner', ?_, hdone⟩
          rw [migrateDevices, hstale]
          simpa [hnonempty, hid, hcall, bind, Except.bind] using hs'

theorem run_clean {devices : List DeviceEntry} (hpairs : ∀ d ∈ devices, ∀ i ∈ d.identifiers, i.IsPair)
    (hclean : ∀ d ∈ devices, ¬ d.CarriesIeee l entry) : migrateDevices r l entry s owner devices = .ok s := by
  induction devices with
  | nil => rfl
  | cons d devices ih =>
    obtain ⟨stale, hstale, hiff⟩ := stale_of_pairs l entry (hpairs d (by simp))
    have hempty : stale = [] := by
      refine List.eq_nil_iff_forall_not_mem.mpr fun i hi => ?_
      exact hclean d (by simp) ⟨i, (hiff i).mp hi⟩
    have hrest := ih (fun d' hd' => hpairs d' (by simp [hd'])) (fun d' hd' => hclean d' (by simp [hd']))
    rw [migrateDevices, hstale]
    simpa [hempty, bind, Except.bind] using hrest

/-- Where the loop begins: with the entry's devices, and the first of them that has its key. -/
theorem start (h : r.Documented)
    (hpairs : ∀ d ∈ r.devices s, entry.entryId ∈ d.configEntries → ∀ i ∈ d.identifiers, i.IsPair)
    (hown : ∀ d ∈ r.devices s, entry.ownKey ∈ d.identifiers → entry.entryId ∈ d.configEntries) :
    DevicesAt r l entry s s ((entriesForConfigEntry r entry s).find? (fun d => entry.ownKey ∈ d.identifiers))
      (entriesForConfigEntry r entry s) := by
  have hlisted : ∀ d, d ∈ entriesForConfigEntry r entry s ↔
      d ∈ r.devices s ∧ entry.entryId ∈ d.configEntries := by
    intro d
    simp [entriesForConfigEntry, List.mem_filter]
  refine ⟨⟨?_, fun _ hd _ => hd, fun d hd => .inl ⟨d, hd, rfl⟩, fun _ he _ => he, fun e he => ⟨e, he, rfl⟩⟩,
    ?_, ?_, ?_, ?_, ?_, ?_, ?_⟩
  · exact fun d hd => ⟨d, hd, rfl, fun _ _ => Iff.rfl⟩
  · exact (h.device_ids s).sublist (List.filter_sublist.map _)
  · intro d hd
    obtain ⟨hmem, hentry⟩ := (hlisted d).mp hd
    exact ⟨hmem, hmem, hentry⟩
  · exact hpairs
  · exact fun d hd hentry => .inl ((hlisted d).mpr ⟨hd, hentry⟩)
  · intro hnone d hd hkey
    have hnot := List.find?_eq_none.mp hnone d ((hlisted d).mpr ⟨hd, hown d hd hkey⟩)
    exact hnot (by simpa using hkey)
  · intro hnone d hd hentry
    have hnot := List.find?_eq_none.mp hnone d ((hlisted d).mpr ⟨hd, hentry⟩)
    exact ⟨by simpa using hnot, fun _ => (hlisted d).mpr ⟨hd, hentry⟩⟩
  · intro o ho
    obtain ⟨hmem, hentry⟩ := (hlisted o).mp (List.mem_of_find?_eq_some ho)
    have hkey := List.find?_some ho
    exact ⟨o, hmem, rfl, hentry, by simpa using hkey⟩

end DevicesAt

end

end OnestiLock
