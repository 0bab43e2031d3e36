import OnestiLock.ReleaseBinding

/-! What each step of the release script establishes. -/

namespace OnestiLock.ReleasePublish

open Program

/-- The release an answer told of is there, with the assets it had. -/
def Held (candidate : Candidate) (s : Scene) (r : ReleaseAnswer) : Prop :=
  ∃ release ∈ s.1.hub.releases, release.id = r.id ∧ release.tagName = candidate.tag ∧
    r.targetCommitish = some release.targetCommitish ∧
    ∀ a ∈ r.assets.getD [], ∃ asset ∈ release.assets, asset.answer = a

/-- A draft made for a full sha is the candidate's. -/
def OnCandidate (candidate : Candidate) (r : ReleaseAnswer) : Prop :=
  isFullSha (r.targetCommitish.getD "") = true → r.targetCommitish.getD "" = candidate.sha

/-- An asset with this id was read back in this run, and is still there. -/
def ReadBack (lib : Libraries) (candidate : Candidate) (s : Scene) (id : Nat) (digest : String) : Prop :=
  ∃ release ∈ s.1.hub.releases, ∃ asset ∈ release.assets, asset.id = id ∧ lib.sha256 asset.content = digest ∧
    ⟨.raw candidate.repo id, .ok asset.content⟩ ∈ s.2

/-- The release has the ZIP, read back with this digest. -/
def Stocked (lib : Libraries) (candidate : Candidate) (s : Scene) (id : Nat) (digest : String) : Prop :=
  ∃ release ∈ s.1.hub.releases, release.id = id ∧ ∃ asset ∈ release.assets, asset.name = assetName ∧
    lib.sha256 asset.content = digest ∧ ⟨.raw candidate.repo asset.id, .ok asset.content⟩ ∈ s.2

structure Attested (candidate : Candidate) (s : Scene) (digest : String) : Prop where
  there : ∃ a ∈ s.1.hub.attestations, a.repo = candidate.repo ∧ a.sourceDigest = candidate.sha ∧
    a.signerWorkflow = candidate.repo ++ "/" ++ signerWorkflow ∧ digest ∈ a.subjects
  verified : ∃ file given,
    ⟨.attestation file candidate.repo candidate.sha (candidate.repo ++ "/" ++ signerWorkflow),
      .ok (some given)⟩ ∈ s.2 ∧ some digest ∈ given.flatten

/-- The digest of a fresh build of the candidate. -/
def Built (lib : Libraries) (git : Git) (sha digest : String) : Prop :=
  ∃ built, build lib git sha = .ok built ∧ digest = lib.sha256 built

def OnMain (candidate : Candidate) (trial : Bool) (s : Scene) : Prop :=
  s.1.hub.OnDefaultBranch candidate.sha ∨ trial = true ∧ candidate.version = "0.0.0"

section Later

variable {lib : Libraries} {candidate : Candidate} {trial : Bool} {s t : Scene} {digest : String}

theorem Held.since {r : ReleaseAnswer} (h : Held candidate s r) (hs : Since s t) : Held candidate t r := by
  obtain ⟨release, hr, hid, htag, htarget, ha⟩ := h
  obtain ⟨later, hl, hk⟩ := hs.hub.releases release hr
  refine ⟨later, hl, hk.id.trans hid, hk.tagName.trans htag, ?_, ?_⟩
  · rw [hk.targetCommitish]
    exact htarget
  · intro a hm
    obtain ⟨asset, hasset, he⟩ := ha a hm
    exact ⟨asset, hk.assets hasset, he⟩

theorem Attested.since (h : Attested candidate s digest) (hs : Since s t) : Attested candidate t digest where
  there := by
    rw [hs.hub.same.attestations]
    exact h.there
  verified := by
    obtain ⟨file, given, hm, hd⟩ := h.verified
    exact ⟨file, given, hs.log hm, hd⟩

theorem OnMain.since (h : OnMain candidate trial s) (hs : Since s t) : OnMain candidate trial t :=
  h.imp_left (fun hb => hb.kept hs.hub)

theorem ReadBack.since {id : Nat} (h : ReadBack lib candidate s id digest) (hs : Since s t) :
    ReadBack lib candidate t id digest := by
  obtain ⟨release, hr, asset, ha, hid, hd, hlog⟩ := h
  obtain ⟨later, hl, hk⟩ := hs.hub.releases release hr
  exact ⟨later, hl, asset, hk.assets ha, hid, hd, hs.log hlog⟩

theorem ReadBack.of_held {r : ReleaseAnswer} {a : AssetAnswer} (h : ReadBack lib candidate s a.id digest)
    (hh : Held candidate s r) (ha : a ∈ r.assets.getD []) (hn : a.name = some assetName) :
    Stocked lib candidate s r.id digest := by
  obtain ⟨other, ho, asset, hasset, hid, hd, hlog⟩ := h
  obtain ⟨release, hr, hrid, -, -, hassets⟩ := hh
  obtain ⟨own, hown, he⟩ := hassets a ha
  have hid' : own.id = a.id := congrArg AssetAnswer.id he
  have hname : some own.name = a.name := congrArg AssetAnswer.name he
  have heq : asset = own := GitHub.asset_eq ho hr hasset hown (hid.trans hid'.symm)
  subst heq
  rw [← hid] at hlog
  exact ⟨release, hr, hrid, asset, hown, Option.some.inj (hname.trans hn), hd, hlog⟩

end Later

section Steps

variable {lib : Libraries} {git : Git} {gh : Gh} {candidate : Candidate} {trial : Bool} {s : Scene}

theorem api_get (endpoint : Endpoint) (payload : Payload) (allow404 : Bool) (s : Scene) :
    Establishes lib git candidate trial (gh.api .get candidate.repo endpoint payload allow404) s
      (fun t answer => (answer = none → allow404 = true) ∧ ∀ given, answer = some given →
        t.1.hub.Serves t.1.files .get endpoint payload given t.1.hub) := by
  refine .api (.quiet (.get endpoint payload)) (fun answer t hreplies hfiles => ?_)
    (fun hallowed t => ⟨fun _ => hallowed, fun given hgiven => by cases hgiven⟩)
  have hub : t.1.hub = s.1.hub := GitHub.replies_get hreplies
  obtain ⟨given', rfl, hserved⟩ := GitHub.replies_ok hreplies GitHub.not_garbles_get
  refine ⟨(fun hnone => nomatch hnone), fun given hgiven => ?_⟩
  cases hgiven
  rw [hfiles]
  rw [hub] at hserved ⊢
  exact hserved

theorem readFile_establishes (file : String) (s : Scene) :
    Establishes lib git candidate trial (readFile file) s
      (fun t content => t.1 = s.1 ∧ s.1.files file = some content) := by
  refine .call (.readFile file) (fun reply t ha _ => ?_)
  cases reply with
  | ok content => exact .done ⟨ha.1, ha.2 content rfl⟩
  | error name => exact .fail _

theorem writeFile_establishes (file : String) (content : Bytes) (s : Scene) :
    Establishes lib git candidate trial (writeFile file content) s
      (fun t _ => t.1.hub = s.1.hub ∧ t.1.files file = some content) := by
  refine .call (.writeFile file content) (fun reply t ha _ => ?_)
  cases reply with
  | ok u => exact .done ⟨ha.1, ha.2 rfl⟩
  | error name => exact .fail _

theorem writeOutcome_establishes (outcome : String) (c : Candidate) (s : Scene) :
    Establishes lib git candidate trial (writeOutcome outcome c) s (fun _ _ => True) := by
  refine .call (.writeOutcome outcome c) (fun reply t _ _ => ?_)
  cases reply with
  | ok u => exact .done trivial
  | error name => exact .fail _

theorem sha256Of_establishes (file : String) (s : Scene) :
    Establishes lib git candidate trial (sha256Of lib file) s
      (fun t digest => t.1 = s.1 ∧ ∃ content, s.1.files file = some content ∧ digest = lib.sha256 content) := by
  refine (readFile_establishes file s).bind (fun t content _ ht => ?_)
  exact .done ⟨ht.1, content, ht.2, rfl⟩

/-- What is written is what is read, so the digest is that of the bytes. -/
theorem digest_of_written (file : String) (content : Bytes) (s : Scene) :
    Establishes lib git candidate trial (writeFile file content >>= fun _ => sha256Of lib file) s
      (fun t digest => t.1.hub = s.1.hub ∧ digest = lib.sha256 content) := by
  refine (writeFile_establishes file content s).bind (fun t _ _ ht => ?_)
  refine (sha256Of_establishes file t).mono (fun u digest hu => ?_)
  obtain ⟨hsite, written, hfile, hd⟩ := hu
  have hw : written = content := Option.some.inj (hfile.symm.trans ht.2)
  exact ⟨(congrArg Site.hub hsite).trans ht.1, hw ▸ hd⟩

theorem buildZip_establishes (sha target : String) (s : Scene) :
    Establishes lib git candidate trial (buildZip lib git sha target) s
      (fun _ digest => Built lib git sha digest) := by
  have hraised : Establishes lib git candidate trial (raised (build lib git sha)) s
      (fun _ built => build lib git sha = .ok built) := .raised (fun _ h => h)
  refine hraised.bind (fun t built _ hbuilt => ?_)
  exact (digest_of_written target built t).mono (fun u digest hu => ⟨built, hbuilt, hu.2⟩)

theorem tagSha_establishes (s : Scene) :
    Establishes lib git candidate trial (tagSha gh candidate) s
      (fun t sha => ∀ x, sha = some x → t.1.hub.Resolves candidate.tag x) := by
  have hname : "refs/" ++ ("tags/" ++ candidate.tag) = "refs/tags/" ++ candidate.tag := by
    rw [← String.append_assoc]
    rfl
  refine (api_get (.ref ("tags/" ++ candidate.tag)) .empty true s).bind (fun t object _ ht => ?_)
  cases object with
  | none => exact .done (fun x hx => by cases hx)
  | some object =>
    have href : t.1.hub.refs ("refs/tags/" ++ candidate.tag) = some object := hname ▸ (ht.2 object rfl).1
    dsimp only
    split
    · refine .done (fun x hx => ?_)
      exact ⟨object, href, .inl (Option.some.inj hx)⟩
    · split
      · rename_i htype
        refine (api_get (.tagObject object.sha) .empty false t).bind (fun u target hs hu => ?_)
        cases target with
        | none => exact .fail _
        | some target =>
          refine .done (fun x hx => ?_)
          have href' : u.1.hub.refs ("refs/tags/" ++ candidate.tag) = some object := hs.hub.refs _ _ href
          exact ⟨object, href', .inr ⟨htype, target, (hu.2 target rfl).1, Option.some.inj hx⟩⟩
      · exact .fail _

theorem Held.of_answer {release : Release} (hr : release ∈ s.1.hub.releases)
    (ht : release.tagName = candidate.tag) : Held candidate s release.answer := by
  refine ⟨release, hr, rfl, ht, rfl, ?_⟩
  intro a ha
  exact List.mem_map.mp ha

theorem findRelease_establishes (s : Scene) :
    Establishes lib git candidate trial (findRelease gh candidate) s
      (fun t release => ∀ r, release = some r → Held candidate t r) := by
  refine (api_get .releases .empty false s).bind (fun t releases _ ht => ?_)
  cases h : (releases.getD []).filter (fun r => r.tagName = some candidate.tag) with
  | nil =>
    dsimp only
    exact .done (fun r hr => by cases hr)
  | cons r rest =>
    have hmem : r ∈ (releases.getD []).filter (fun r => r.tagName = some candidate.tag) := by simp [h]
    obtain ⟨hlisted, htag⟩ := List.mem_filter.mp hmem
    cases rest with
    | nil =>
      dsimp only
      refine .done (fun r' hr' => ?_)
      cases hr'
      cases releases with
      | none => cases hlisted
      | some releases =>
        obtain ⟨⟨l, hperm, hl⟩, -⟩ := ht.2 releases rfl
        rw [Option.getD_some, hl] at hlisted
        obtain ⟨release, hrelease, rfl⟩ := List.mem_map.mp hlisted
        have htag' : some release.tagName = some candidate.tag := of_decide_eq_true htag
        exact .of_answer (hperm.mem_iff.mp hrelease) (Option.some.inj htag')
    | cons r' rest =>
      dsimp only
      exact .fail _

theorem nonempty_some {text : String} (h : text ≠ "") : nonempty (some text) = some text := by
  simp [nonempty, h]

theorem requireMainBranch_establishes (s : Scene) :
    Establishes lib git candidate trial (requireMainBranch gh candidate trial) s
      (fun t _ => OnMain candidate trial t) := by
  unfold requireMainBranch
  split
  · rename_i htrial
    split
    · exact .fail _
    · rename_i hversion
      exact .done (.inr ⟨htrial, not_not.mp hversion⟩)
  · refine (api_get .repository .empty false s).bind (fun t repository _ ht => ?_)
    cases repository with
    | none => cases ht.1 rfl
    | some branch =>
      have hbranch : branch = some t.1.hub.defaultBranch := (ht.2 branch rfl).1
      have hmain : (nonempty ((some branch).getD none)).getD "main" = t.1.hub.defaultBranch := by
        rw [Option.getD_some, hbranch, nonempty_some t.1.hub.defaultBranch_ne]
        rfl
      dsimp only
      rw [hmain]
      refine (api_get _ .empty true t).bind (fun u answer hs hu => ?_)
      cases answer with
      | none => exact .fail _
      | some status =>
        dsimp only
        split
        · exact .fail _
        · rename_i hstatus
          refine .done (.inl ?_)
          have hgiven : (u.1.hub.compare t.1.hub.defaultBranch candidate.sha).map some = some status :=
            (hu.2 status rfl).1
          obtain ⟨text, htext, rfl⟩ := Option.map_eq_some_iff.mp hgiven
          have hne : text ≠ "" := by
            rintro rfl
            exact hstatus (by decide)
          rw [nonempty_some hne, Option.getD_some, not_not, List.mem_pair] at hstatus
          unfold GitHub.OnDefaultBranch
          rw [hs.hub.same.defaultBranch, htext]
          exact hstatus.imp (congrArg some) (congrArg some)

theorem verifyAttestation_establishes (sha zip digest : String) (s : Scene) :
    Establishes lib git candidate trial (verifyAttestation { candidate with sha := sha } zip digest) s
      (fun t _ => Attested { candidate with sha := sha } t digest) := by
  have hcall : Establishes lib git candidate trial
      (attestation zip candidate.repo sha (candidate.repo ++ "/" ++ signerWorkflow)) s
      (fun t given => ∀ l, given = some l → some digest ∈ l.flatten →
        Attested { candidate with sha := sha } t digest) := by
    refine .call (.attestation zip sha _) (fun reply t ha hlog => ?_)
    cases reply with
    | error fault =>
      cases fault with
      | exit message => exact .fail _
      | unreadable => exact .fail _
    | ok given =>
      refine .done (fun l hl hd => ?_)
      subst hl
      obtain ⟨hsite, hanswers⟩ := ha rfl
      obtain ⟨answer, hanswer, hmem⟩ := List.mem_flatten.mp hd
      obtain ⟨a, hmema, hrepo, hsource, hsigner, rfl⟩ := hanswers l rfl answer hanswer
      rw [← hsite] at hmema
      have hsubject : digest ∈ a.subjects := by simpa using hmem
      exact ⟨⟨a, hmema, hrepo, hsource, hsigner, hsubject⟩, zip, l, hlog, hd⟩
  refine hcall.bind (fun t given _ ht => ?_)
  split
  · exact .fail _
  · exact .fail _
  · split
    · exact .fail _
    · rename_i answers _ hmem
      exact .done (ht answers rfl (not_not.mp hmem))

theorem downloadAsset_establishes (asset : AssetAnswer) (target : String) (s : Scene) :
    Establishes lib git candidate trial (downloadAsset lib candidate asset target) s
      (fun t digest => ReadBack lib candidate t asset.id digest) := by
  have hraw : Establishes lib git candidate trial (raw candidate.repo asset.id) s
      (fun t content => ReadBack lib candidate t asset.id (lib.sha256 content)) := by
    refine .call (.raw asset.id) (fun reply t ha hlog => ?_)
    cases reply with
    | error message => exact .fail _
    | ok content =>
      obtain ⟨hdown, hsite⟩ := ha rfl
      obtain ⟨release, hr, own, hown, hid, rfl⟩ := hdown content rfl
      rw [← hsite] at hr
      exact .done ⟨release, hr, own, hown, hid, rfl, hlog⟩
  refine hraw.bind (fun t content _ ht => ?_)
  refine (digest_of_written target content t).since.mono (fun u digest hu => ?_)
  rw [hu.2.2]
  exact ht.since hu.1

theorem candidateZip_establishes (arguments : Arguments) (s : Scene) :
    Establishes lib git candidate trial (candidateZip lib git candidate arguments) s
      (fun _ zip => Built lib git candidate.sha zip.2) := by
  unfold candidateZip
  split
  · refine (buildZip_establishes candidate.sha _ s).bind (fun t digest _ ht => ?_)
    exact .done ht
  · refine (sha256Of_establishes _ s).bind (fun t digest _ _ => ?_)
    refine (buildZip_establishes candidate.sha _ t).bind (fun u expected _ hu => ?_)
    split
    · exact .fail _
    · rename_i heq
      exact .done (not_not.mp heq ▸ hu)

theorem shouldBeLatest_establishes (s : Scene) :
    Establishes lib git candidate trial (shouldBeLatest lib gh candidate) s (fun _ _ => True) := by
  unfold shouldBeLatest
  split
  · exact .done trivial
  · refine (api_get .latest .empty true s).bind (fun t latest _ _ => ?_)
    cases latest with
    | none => exact .done trivial
    | some latest =>
      dsimp only
      generalize String.ofList ((latest.tagName.getD "").toList.dropWhile (· = 'v')) = current
      split
      · have hraised : ∀ (version : String) (t : Scene), Establishes lib git candidate trial
            (raised (versionNumbers lib version)) t (fun _ _ => True) :=
          fun _ _ => .raised (fun _ _ => trivial)
        refine (hraised candidate.version t).bind (fun u ours _ _ => ?_)
        refine (hraised current u).bind (fun v theirs _ _ => ?_)
        exact .done trivial
      · exact .done trivial

theorem createRef_establishes (name sha : String) (s : Scene) :
    Establishes lib git candidate trial (gh.api .post candidate.repo .refs (.ref name sha) false) s
      (fun t _ => ∃ object, t.1.hub.refs name = some object ∧ object.sha = sha) := by
  refine .api (.quiet (.createRef name sha)) (fun answer t hreplies _ => ?_) (fun h => by cases h)
  obtain ⟨object, -, hcreated, hsha⟩ := GitHub.replies_ok hreplies GitHub.not_garbles_refs
  refine ⟨object, ?_, hsha⟩
  rw [hcreated.refs, Function.update_self]

theorem ensureTag_establishes (hw : gh.dryRun = false) (s : Scene) :
    Establishes lib git candidate trial (ensureTag gh candidate) s
      (fun t _ => t.1.hub.Resolves candidate.tag candidate.sha) := by
  refine (tagSha_establishes s).bind (fun t existing _ ht => ?_)
  split
  · rename_i he
    exact .done (ht candidate.sha he)
  · cases existing with
    | some sha => exact .fail _
    | none =>
      dsimp only
      rw [hw]
      refine (createRef_establishes _ _ t).bind (fun u _ _ hu => ?_)
      obtain ⟨object, href, hsha⟩ := hu
      exact .done ⟨object, href, .inl hsha⟩

theorem createRelease_establishes (fields : ReleaseFields) (htag : fields.tagName = some candidate.tag)
    (htarget : fields.targetCommitish = some candidate.sha) (s : Scene) :
    Establishes lib git candidate trial (gh.api .post candidate.repo .releases (.release fields) false) s
      (fun t created => ∀ r, created = some r → Held candidate t r ∧ OnCandidate candidate r) := by
  refine .api (.quiet (.createRelease fields)) (fun answer t hreplies _ => ?_) (fun h => by cases h)
  obtain ⟨created, rfl, release, hcreated, rfl⟩ := GitHub.replies_ok hreplies GitHub.not_garbles_releases
  intro r hr
  cases hr
  have hlisted : release ∈ t.1.hub.releases := by
    rw [hcreated.releases]
    exact List.mem_append_right _ (List.mem_singleton_self release)
  have hname : release.tagName = candidate.tag := Option.some.inj (hcreated.tagName.symm.trans htag)
  have htext : release.targetCommitish = candidate.sha := by
    rw [hcreated.targetCommitish, htarget]
    rfl
  exact ⟨.of_answer hlisted hname, fun _ => htext⟩

theorem ensureDraft_establishes (hw : gh.dryRun = false) {release : Option ReleaseAnswer} (body : String)
    (h : ∀ r, release = some r → Held candidate s r ∧ OnCandidate candidate r) :
    Establishes lib git candidate trial (ensureDraft gh candidate release body) s
      (fun t draft => ∀ r, draft.1 = some r → Held candidate t r ∧ OnCandidate candidate r) := by
  unfold ensureDraft
  split
  · exact .done h
  · rw [hw]
    refine (createRelease_establishes _ rfl rfl s).bind (fun t created _ ht => ?_)
    exact .done ht

theorem requireDraftOnCandidate_ok {r : ReleaseAnswer} (h : requireDraftOnCandidate candidate r = .ok ()) :
    OnCandidate candidate r := by
  intro hfull
  simp only [requireDraftOnCandidate] at h
  split at h
  · cases h
  · rename_i hn
    by_contra hne
    exact hn ⟨hfull, hne⟩

theorem mem_of_zips {r : ReleaseAnswer} {a : AssetAnswer} {rest : List AssetAnswer} (h : zips r = a :: rest) :
    a ∈ r.assets.getD [] ∧ a.name = some assetName := by
  have hm : a ∈ zips r := by simp [h]
  obtain ⟨hlisted, hname⟩ := List.mem_filter.mp hm
  exact ⟨hlisted, of_decide_eq_true hname⟩

/-- A ZIP the release is known to carry, once it was read back. -/
theorem readBack_establishes {r : ReleaseAnswer} {a : AssetAnswer} {rest : List AssetAnswer}
    (h : zips r = a :: rest) (hr : Held candidate s r) (target : String) :
    Establishes lib git candidate trial (downloadAsset lib candidate a target) s
      (fun t digest => Stocked lib candidate t r.id digest) := by
  obtain ⟨hlisted, hname⟩ := mem_of_zips h
  refine (downloadAsset_establishes a target s).since.mono (fun t digest ht => ?_)
  exact ht.2.of_held (hr.since ht.1) hlisted hname

theorem upload_establishes (id : Nat) (name file : String) (s : Scene) :
    Establishes lib git candidate trial (gh.api .post candidate.repo (.assets id name) (.file file) false) s
      (fun _ _ => True) :=
  .api (.quiet (.upload id name file)) (fun _ _ _ _ => trivial) (fun _ _ => trivial)

theorem Held.again {r updated : ReleaseAnswer} (h : Held candidate s r)
    (hu : s.1.hub.Serves s.1.files .get (.release r.id) .empty updated s.1.hub) :
    Held candidate s updated ∧ updated.id = r.id := by
  obtain ⟨release, hr, hid, htag, -, -⟩ := h
  obtain ⟨⟨own, hown, hownid, rfl⟩, -⟩ := hu
  have heq : own = release := GitHub.release_eq hown hr (hownid.trans hid.symm)
  exact ⟨.of_answer hown (heq ▸ htag), hownid⟩

theorem ensureAsset_establishes (hw : gh.dryRun = false) {r : ReleaseAnswer} (h : Held candidate s r)
    (zip digest workdir : String) :
    Establishes lib git candidate trial (ensureAsset lib gh candidate r zip digest workdir) s
      (fun t _ => Stocked lib candidate t r.id digest) := by
  unfold ensureAsset
  split
  · rename_i asset rest hz
    refine (readBack_establishes hz h _).bind (fun t loaded _ ht => ?_)
    split
    · rename_i heq
      exact .done (heq ▸ ht)
    · exact .fail _
  · rw [hw]
    have hupload : Establishes lib git candidate trial
        (catchFailure
          (gh.api .post candidate.repo (.assets r.id assetName) (.file zip) false >>= fun _ => pure ())
          (fun _ => .done ())) s (fun _ _ => True) := by
      refine .catchFailure ?_ (fun _ _ => .done trivial)
      exact (upload_establishes _ _ _ s).bind (fun _ _ _ _ => .done trivial)
    refine hupload.bind (fun t _ hs _ => ?_)
    refine (api_get (.release r.id) .empty false t).bind (fun u updated hs' hu => ?_)
    cases updated with
    | none => exact .fail _
    | some updated =>
      obtain ⟨hheld, hid⟩ := (h.since (hs.trans hs')).again (hu.2 updated rfl)
      dsimp only
      split
      · exact .fail _
      · rename_i asset rest hz
        refine (readBack_establishes hz hheld _).bind (fun v loaded _ hv => ?_)
        split
        · exact .fail _
        · rename_i heq
          have hd : loaded = digest := not_not.mp heq
          rw [hd, hid] at hv
          exact .done hv

theorem unpack_establishes (file : String) (s : Scene) :
    Establishes lib git candidate trial (unpack lib file) s (fun _ _ => True) := by
  refine (readFile_establishes file s).bind (fun t content _ _ => ?_)
  split
  · exact .done trivial
  · exact .fail _

theorem contentCheck_establishes (sha : String) (predates : Bool) (expected actual fromTag published : String)
    (s : Scene) :
    Establishes lib git candidate trial
      (contentCheck lib candidate sha predates expected actual fromTag published) s (fun _ _ => True) := by
  unfold contentCheck
  split
  · exact .done trivial
  · refine (unpack_establishes fromTag s).bind (fun t reference _ _ => ?_)
    refine (unpack_establishes published t).bind (fun u shipped _ _ => ?_)
    exact .done trivial

theorem attestationCheck_establishes (sha published digest : String) (s : Scene) :
    Establishes lib git candidate trial (attestationCheck { candidate with sha := sha } published digest) s
      (fun _ _ => True) := by
  refine .catchStop ?_ (fun _ _ => .done trivial)
  exact (verifyAttestation_establishes sha published digest s).bind (fun _ _ _ _ => .done trivial)

theorem checkPublished_establishes (release : ReleaseAnswer) (workdir : String) (s : Scene) :
    Establishes lib git candidate trial (checkPublished lib git gh candidate release workdir) s
      (fun _ _ => True) := by
  refine (tagSha_establishes s).bind (fun t sha _ _ => ?_)
  cases sha with
  | none => exact .done trivial
  | some sha =>
    have hraised : Establishes lib git candidate trial (raised (versionNumbers lib candidate.version)) t
        (fun _ _ => True) := .raised (fun _ _ => trivial)
    refine hraised.bind (fun u numbers _ _ => ?_)
    dsimp only
    split
    · exact .done trivial
    · refine (buildZip_establishes sha _ u).bind (fun v expected _ _ => ?_)
      refine (downloadAsset_establishes _ _ v).bind (fun w actual _ _ => ?_)
      refine (contentCheck_establishes sha _ expected actual _ _ w).bind (fun x content _ _ => ?_)
      split
      · exact (attestationCheck_establishes sha _ actual x).bind (fun _ _ _ _ => .done trivial)
      · exact .done trivial

theorem proved_establishes (arguments : Arguments) (release : ReleaseAnswer) (s : Scene) :
    Establishes lib git candidate trial (proved lib git gh candidate arguments release) s (fun _ _ => True) := by
  refine (checkPublished_establishes release arguments.workdir s).bind (fun t checks _ _ => ?_)
  split
  · exact writeOutcome_establishes "noop" candidate t
  · exact .fail _

end Steps

end OnestiLock.ReleasePublish
