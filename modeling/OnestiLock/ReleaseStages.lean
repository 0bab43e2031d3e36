import Mathlib.Data.Finset.Basic
import Mathlib.Data.Fintype.EquivFin
import OnestiLock.ReleaseFaults

/-! How far a release has come, and how each write of the script takes it to
the next stage. -/

namespace OnestiLock

namespace GitHub

variable {s t : GitHub} {tag : String}

def named (s : GitHub) (tag : String) : List Release := s.releases.filter (fun r => r.tagName = tag)

theorem mem_of_named {r : Release} (h : s.named tag = [r]) : r ∈ s.releases ∧ r.tagName = tag := by
  have hm : r ∈ s.named tag := by simp [h]
  obtain ⟨hr, htag⟩ := List.mem_filter.mp hm
  exact ⟨hr, of_decide_eq_true htag⟩

theorem exists_fresh (ids : List Nat) : ∃ id, id ∉ ids := by
  obtain ⟨id, hid⟩ := Infinite.exists_notMem_finset ids.toFinset
  exact ⟨id, fun h => hid (List.mem_toFinset.mpr h)⟩

/-! A new ref. -/

theorem CreatesRef.exists {name : String} (h : s.refs name = none) (object : GitObject) :
    ∃ t, s.CreatesRef name object t :=
  ⟨{ s with refs := Function.update s.refs name (some object) }, ⟨rfl, rfl, rfl, rfl⟩, h, rfl, rfl⟩

/-! A new draft. -/

theorem CreatesRelease.named {fields : ReleaseFields} {r : Release} (h : s.CreatesRelease fields r t)
    (hnone : s.named tag = []) (htag : r.tagName = tag) : t.named tag = [r] := by
  unfold GitHub.named at hnone ⊢
  rw [h.releases, List.filter_append, hnone]
  simp [htag]

theorem CreatesRelease.exists {fields : ReleaseFields} (htag : fields.tagName = some tag)
    (hdraft : fields.draft = some true) : ∃ r t, s.CreatesRelease fields r t := by
  obtain ⟨id, hid⟩ := exists_fresh (s.releases.map Release.id)
  let r : Release := ⟨id, tag, fields.targetCommitish.getD s.defaultBranch, fields.body, true, [], List.nodup_nil⟩
  have hids : ((s.releases ++ [r]).map Release.id).Nodup := by
    rw [List.map_append, List.map_singleton, List.nodup_append_comm, List.singleton_append]
    exact List.nodup_cons.mpr ⟨hid, s.releaseIds⟩
  have hassets : (((s.releases ++ [r]).flatMap Release.assets).map Asset.id).Nodup := by
    rw [List.flatMap_append, List.flatMap_singleton, List.append_nil]
    exact s.assetIds
  refine ⟨r, { s with releases := s.releases ++ [r], releaseIds := hids, assetIds := hassets }, ?_⟩
  exact ⟨⟨rfl, rfl, rfl, rfl⟩, htag, rfl, rfl, by rw [hdraft]; rfl, rfl, fun _ _ h => h, fun _ => rfl, rfl⟩

/-! A new asset. -/

theorem filter_middle {before after : List Release} {r : Release}
    (h : (before ++ r :: after).filter (fun r => r.tagName = tag) = [r]) (htag : r.tagName = tag) :
    before.filter (fun r => r.tagName = tag) = [] ∧ after.filter (fun r => r.tagName = tag) = [] := by
  rw [List.filter_append, List.filter_cons_of_pos (by simpa using htag)] at h
  have hlength := congrArg List.length h
  simp only [List.length_append, List.length_cons, List.length_nil] at hlength
  exact ⟨List.length_eq_zero_iff.mp (by omega), List.length_eq_zero_iff.mp (by omega)⟩

theorem StoresAsset.named {id : Nat} {asset : Asset} {r : Release} (h : s.StoresAsset id asset t)
    (honly : s.named tag = [r]) (hid : r.id = id) : ∃ stored, t.named tag = [stored] ∧ stored.id = r.id ∧
      stored.draft = r.draft ∧ stored.targetCommitish = r.targetCommitish ∧ stored.assets = r.assets ++ [asset] := by
  obtain ⟨before, release, stored, after, hs, ht, hrelease, hsame, htag, htarget, -, hdraft, hassets⟩ := h.releases
  obtain ⟨hr, hrtag⟩ := mem_of_named honly
  have hmem : release ∈ s.releases := by simp [hs]
  obtain rfl : release = r := release_eq hmem hr (hrelease.trans hid.symm)
  unfold GitHub.named at honly
  rw [hs] at honly
  obtain ⟨hbefore, hafter⟩ := filter_middle honly hrtag
  refine ⟨stored, ?_, hsame, hdraft, htarget, hassets⟩
  unfold GitHub.named
  rw [ht, List.filter_append, List.filter_cons_of_pos (by simpa using htag.trans hrtag), hbefore, hafter]
  rfl

theorem StoresAsset.exists {r : Release} (hr : r ∈ s.releases) (hempty : r.assets = []) (name : String)
    (content : Bytes) : ∃ asset t, s.StoresAsset r.id asset t ∧ asset.name = name ∧ asset.content = content := by
  obtain ⟨id, hid⟩ := exists_fresh ((s.releases.flatMap Release.assets).map Asset.id)
  obtain ⟨before, after, hs⟩ := List.append_of_mem hr
  let asset : Asset := ⟨id, name, content⟩
  let stored : Release := { r with assets := [asset], names := List.nodup_singleton _ }
  have hids : ((before ++ stored :: after).map Release.id).Nodup := by
    have hold := s.releaseIds
    rw [hs] at hold
    simpa using hold
  have hassets : (((before ++ stored :: after).flatMap Release.assets).map Asset.id).Nodup := by
    have hold := s.assetIds
    rw [hs] at hold hid
    have hperm : (((before ++ stored :: after).flatMap Release.assets).map Asset.id).Perm
        (id :: ((before ++ r :: after).flatMap Release.assets).map Asset.id) := by
      simp only [List.flatMap_append, List.flatMap_cons, List.map_append, hempty, List.nil_append, stored,
        List.singleton_append, asset]
      exact List.perm_middle
    exact hperm.nodup_iff.mpr (List.nodup_cons.mpr ⟨hid, hold⟩)
  refine ⟨asset, { s with releases := before ++ stored :: after, releaseIds := hids, assetIds := hassets }, ?_, rfl,
    rfl⟩
  exact ⟨⟨rfl, rfl, rfl, rfl⟩, rfl, before, r, stored, after, hs, rfl, rfl, rfl, rfl, rfl, rfl, rfl, by rw [hempty]; rfl⟩

/-! Publishing. -/

def publishingFields (latest : String) : ReleaseFields := { draft := some false, makeLatest := some latest }

theorem UpdatesRelease.named {latest : String} {r : Release} (h : s.UpdatesRelease r.id (publishingFields latest) t)
    (honly : s.named tag = [r]) : t.named tag = [{ r with draft := false }] := by
  have htag : ∀ release : Release, decide ((if release.id = r.id then (publishingFields latest).apply release
      else release).tagName = tag) = decide (release.tagName = tag) := by
    intro release
    split <;> rfl
  unfold GitHub.named at honly ⊢
  rw [h.releases, List.filter_map]
  have hfilter : s.releases.filter ((fun release : Release => decide (release.tagName = tag)) ∘
      fun release => if release.id = r.id then (publishingFields latest).apply release else release) = [r] := by
    rw [← honly]
    exact List.filter_congr (fun release _ => htag release)
  rw [hfilter]
  simp only [List.map_cons, List.map_nil, if_true]
  rfl

theorem UpdatesRelease.exists (id : Nat) (latest : String) : ∃ t, s.UpdatesRelease id (publishingFields latest) t := by
  let update : Release → Release := fun r => if r.id = id then (publishingFields latest).apply r else r
  have hid : ∀ r, (update r).id = r.id := by
    intro r
    show (if r.id = id then _ else _ : Release).id = r.id
    split <;> rfl
  have hassets : ∀ r, (update r).assets = r.assets := by
    intro r
    show (if r.id = id then _ else _ : Release).assets = r.assets
    split <;> rfl
  have hids : ((s.releases.map update).map Release.id).Nodup := by
    have hmap : s.releases.map (Release.id ∘ update) = s.releases.map Release.id :=
      List.map_congr_left (fun r _ => hid r)
    rw [List.map_map, hmap]
    exact s.releaseIds
  have hall : (((s.releases.map update).flatMap Release.assets).map Asset.id).Nodup := by
    rw [List.flatMap_map]
    simp only [hassets]
    exact s.assetIds
  exact ⟨{ s with releases := s.releases.map update, releaseIds := hids, assetIds := hall }, ⟨rfl, rfl, rfl, rfl⟩,
    fun _ _ h => h, rfl⟩

end GitHub

end OnestiLock
