import OnestiLock.ReleasePublish

/-! What the calls of the release script leave as it was: every ref, every asset
and every release's text, whether the call is answered or not. -/

namespace OnestiLock

/-- A later state of a release: its text and its assets are still there. -/
structure Release.Kept (before after : Release) : Prop where
  id : after.id = before.id
  tagName : after.tagName = before.tagName
  targetCommitish : after.targetCommitish = before.targetCommitish
  body : after.body = before.body
  assets : before.assets ⊆ after.assets

namespace GitHub

/-- Nothing that was there is gone or different, but that a draft may be out. -/
structure Kept (before after : GitHub) : Prop where
  same : before.SameHistory after
  refs : ∀ name object, before.refs name = some object → after.refs name = some object
  releases : ∀ release ∈ before.releases, ∃ later ∈ after.releases, release.Kept later

variable {s t u : GitHub}

theorem SameHistory.refl (s : GitHub) : s.SameHistory s := ⟨rfl, rfl, rfl, rfl⟩

theorem SameHistory.trans (h : s.SameHistory t) (h' : t.SameHistory u) : s.SameHistory u where
  defaultBranch := h'.defaultBranch.trans h.defaultBranch
  compare := h'.compare.trans h.compare
  tagObjects := h'.tagObjects.trans h.tagObjects
  attestations := h'.attestations.trans h.attestations

end GitHub

theorem Release.Kept.refl (r : Release) : r.Kept r := ⟨rfl, rfl, rfl, rfl, fun _ h => h⟩

theorem Release.Kept.trans {q r r' : Release} (h : q.Kept r) (h' : r.Kept r') : q.Kept r' where
  id := h'.id.trans h.id
  tagName := h'.tagName.trans h.tagName
  targetCommitish := h'.targetCommitish.trans h.targetCommitish
  body := h'.body.trans h.body
  assets := fun _ ha => h'.assets (h.assets ha)

namespace GitHub

variable {s t u : GitHub}

theorem Kept.refl (s : GitHub) : s.Kept s :=
  ⟨.refl s, fun _ _ h => h, fun r hr => ⟨r, hr, .refl r⟩⟩

theorem Kept.trans (h : s.Kept t) (h' : t.Kept u) : s.Kept u where
  same := h.same.trans h'.same
  refs := fun name object hs => h'.refs name object (h.refs name object hs)
  releases := by
    intro r hr
    obtain ⟨r', hr', hk⟩ := h.releases r hr
    obtain ⟨r'', hr'', hk'⟩ := h'.releases r' hr'
    exact ⟨r'', hr'', hk.trans hk'⟩

theorem Kept.of_eq (h : t = s) : s.Kept t := h ▸ .refl s

theorem CreatesRef.kept {name : String} {object : GitObject} (h : s.CreatesRef name object t) : s.Kept t where
  same := h.same
  refs := by
    intro other existing hs
    have hne : other ≠ name := by
      rintro rfl
      rw [h.absent] at hs
      cases hs
    rw [h.refs, Function.update_of_ne hne]
    exact hs
  releases := by
    intro r hr
    exact ⟨r, h.releases ▸ hr, .refl r⟩

theorem CreatesRelease.kept {fields : ReleaseFields} {release : Release}
    (h : s.CreatesRelease fields release t) : s.Kept t where
  same := h.same
  refs := h.refs
  releases := by
    intro r hr
    refine ⟨r, ?_, .refl r⟩
    rw [h.releases]
    exact List.mem_append_left _ hr

theorem StoresAsset.kept {id : Nat} {asset : Asset} (h : s.StoresAsset id asset t) : s.Kept t where
  same := h.same
  refs := by
    intro name object hs
    rw [h.refs]
    exact hs
  releases := by
    intro r hr
    obtain ⟨before, release, stored, after, hs, ht, -, hid, htag, htarget, hbody, -, hassets⟩ := h.releases
    rw [hs] at hr
    rw [ht]
    rcases List.mem_append.mp hr with hb | ha
    · exact ⟨r, List.mem_append_left _ hb, .refl r⟩
    · rcases List.mem_cons.mp ha with rfl | ha
      · refine ⟨stored, by simp, hid, htag, htarget, hbody, ?_⟩
        rw [hassets]
        exact List.subset_append_left _ _
      · exact ⟨r, by simp [ha], .refl r⟩

/-- A new value for the draft flag alone. -/
theorem UpdatesRelease.kept {id : Nat} {draft : Option Bool} {latest : Option String}
    (h : s.UpdatesRelease id { draft := draft, makeLatest := latest } t) : s.Kept t where
  same := h.same
  refs := h.refs
  releases := by
    intro r hr
    refine ⟨_, h.releases ▸ List.mem_map_of_mem hr, ?_⟩
    split
    · exact ⟨rfl, rfl, rfl, rfl, fun _ ha => ha⟩
    · exact .refl r

section Requests

variable {read : String → Option Bytes} {endpoint : Endpoint} {payload : Payload} {fields : ReleaseFields}

theorem serves_get {answer : Answer .get endpoint} (h : s.Serves read .get endpoint payload answer t) :
    t = s := by
  cases endpoint <;> simp only [Serves] at h <;> first | exact h.2 | exact h

theorem replies_get {reply : Except Fault (Option (Answer .get endpoint))}
    (h : s.Replies read .get endpoint payload reply t) : t = s := by
  rcases h with ⟨answer, -, h⟩ | ⟨-, h | ⟨hg, -⟩⟩ | ⟨hg, -⟩
  · exact serves_get h
  · exact h
  · exact absurd rfl hg
  · cases hg

/-- A write whose effects are kept, is kept when its answer is lost too. -/
theorem replies_kept {method : Method} {reply : Except Fault (Option (Answer method endpoint))}
    (h : s.Replies read method endpoint payload reply t)
    (hk : ∀ answer, s.Serves read method endpoint payload answer t → s.Kept t) : s.Kept t := by
  rcases h with ⟨answer, -, h⟩ | ⟨-, h | ⟨-, answer, h⟩⟩ | ⟨-, id, asset, -, h⟩
  · exact hk answer h
  · exact .of_eq h
  · exact hk answer h
  · exact h.kept

theorem replies_ok {method : Method} {answer : Option (Answer method endpoint)}
    (h : s.Replies read method endpoint payload (.ok answer) t) (hg : ¬ s.Garbles method endpoint t) :
    ∃ given, answer = some given ∧ s.Serves read method endpoint payload given t := by
  rcases h with ⟨given, hr, h⟩ | ⟨⟨fault, hr⟩, -⟩ | h
  · exact ⟨given, Except.ok.inj hr, h⟩
  · cases hr
  · exact absurd h hg

theorem not_garbles_get : ¬ s.Garbles .get endpoint t := by
  intro h
  cases h.1

theorem not_garbles_refs {method : Method} : ¬ s.Garbles method .refs t := by
  intro h
  obtain ⟨id, asset, he, -⟩ := h.2
  cases he

theorem not_garbles_releases {method : Method} : ¬ s.Garbles method .releases t := by
  intro h
  obtain ⟨id, asset, he, -⟩ := h.2
  cases he

end Requests

end GitHub

namespace ReleasePublish

open Program

/-- GitHub, and the files of the machine the script runs on. -/
structure Site where
  hub : GitHub
  files : String → Option Bytes

/-- How a repository's GitHub, the attestation check and the file system answer.
Every call may fail, and nothing is said of calls about another repository. -/
def answers (repo : String) : Surroundings Op Reply Site := fun s op =>
  match op with
  | .api method of endpoint payload => fun reply t =>
    of = repo → s.hub.Replies s.files method endpoint payload reply t.hub ∧ t.files = s.files
  | .raw of asset => fun reply t => of = repo → s.hub.Downloads asset reply ∧ t = s
  | .attestation _ of source signer => fun reply t =>
    of = repo → t = s ∧ ∀ given, reply = .ok (some given) → ∀ answer ∈ given,
      ∃ a ∈ s.hub.attestations, a.repo = of ∧ a.sourceDigest = source ∧ a.signerWorkflow = signer ∧
        answer = a.subjects.map some
  | .readFile file => fun reply t => t = s ∧ ∀ content, reply = .ok content → s.files file = some content
  | .writeFile file content => fun reply t => t.hub = s.hub ∧ (reply = .ok () → t.files file = some content)
  | .writeOutcome _ _ => fun _ t => t.hub = s.hub

/-- The calls of the script on its candidate's repository, but for the last one. -/
inductive Quiet (repo : String) : Op → Prop
  | get (endpoint : Endpoint) (payload : Payload) : Quiet repo (.api .get repo endpoint payload)
  | createRef (name sha : String) : Quiet repo (.api .post repo .refs (.ref name sha))
  | createRelease (fields : ReleaseFields) : Quiet repo (.api .post repo .releases (.release fields))
  | upload (id : Nat) (name file : String) : Quiet repo (.api .post repo (.assets id name) (.file file))
  | raw (asset : Nat) : Quiet repo (.raw repo asset)
  | attestation (zip source signer : String) : Quiet repo (.attestation zip repo source signer)
  | readFile (file : String) : Quiet repo (.readFile file)
  | writeFile (file : String) (content : Bytes) : Quiet repo (.writeFile file content)
  | writeOutcome (outcome : String) (candidate : Candidate) : Quiet repo (.writeOutcome outcome candidate)

/-- The last call of a run. -/
abbrev publishing (repo : String) (id : Nat) (latest : Bool) : Op :=
  .api .patch repo (.release id) (.release { draft := some false, makeLatest := some (toString latest) })

variable {repo : String} {s t : Site} {op : Op} {reply : Reply op}

theorem Quiet.kept (hq : Quiet repo op) (h : answers repo s op reply t) : s.hub.Kept t.hub := by
  cases hq with
  | get endpoint payload => exact .of_eq (GitHub.replies_get (h rfl).1)
  | createRef name sha => exact GitHub.replies_kept (h rfl).1 (fun _ hs => hs.1.kept)
  | createRelease fields => exact GitHub.replies_kept (h rfl).1 (fun _ ⟨_, hs, _⟩ => hs.kept)
  | upload id name file => exact GitHub.replies_kept (h rfl).1 (fun _ ⟨_, hs, _⟩ => hs.kept)
  | raw asset => exact .of_eq (congrArg Site.hub (h rfl).2)
  | attestation zip source signer => exact .of_eq (congrArg Site.hub (h rfl).1)
  | readFile file => exact .of_eq (congrArg Site.hub h.1)
  | writeFile file content => exact .of_eq h.1
  | writeOutcome outcome candidate => exact .of_eq h

theorem publishing_kept {id : Nat} {latest : Bool} {reply : Reply (publishing repo id latest)}
    (h : answers repo s (publishing repo id latest) reply t) : s.hub.Kept t.hub :=
  GitHub.replies_kept (h rfl).1 (fun _ hs => hs.1.kept)

end ReleasePublish

end OnestiLock
