import OnestiLock.ReleasePublished

/-! An interrupted release is taken up where it stopped: every write takes it to
the next stage, or leaves it where it was. -/

namespace OnestiLock.ReleasePublish

open Program

section

variable (lib : Libraries) (candidate : Candidate) (digest : String)

/-- One release carries the tag, made for the candidate, with these assets, each
uploaded once. -/
structure Holds (s : Flow) (r : Release) (hidden : Bool) (stock : List Asset) : Prop where
  tag : Tagged candidate s
  only : s.hub.named candidate.tag = [r]
  draft : r.draft = hidden
  target : r.targetCommitish = candidate.sha
  assets : r.assets = stock
  uploads : s.uploads = stock.length

/-- The asset is the ZIP of this digest. -/
structure IsZip (zip : Asset) : Prop where
  name : zip.name = assetName
  digest : lib.sha256 zip.content = digest

/-- How far the release has come. -/
inductive Stage (s : Flow) : Prop
  | bare (tag : Untagged candidate s ∨ Tagged candidate s) (none : s.hub.named candidate.tag = [])
      (uploads : s.uploads = 0)
  | drafted (r : Release) (held : Holds candidate s r true [])
  | stocked (r : Release) (zip : Asset) (held : Holds candidate s r true [zip]) (hzip : IsZip lib digest zip)
  | out (r : Release) (zip : Asset) (held : Holds candidate s r false [zip]) (hzip : IsZip lib digest zip)

/-- Out, with its ZIP as the only asset, uploaded once. -/
def Out (s : Flow) : Prop := ∃ r zip, Holds candidate s r false [zip] ∧ IsZip lib digest zip

structure Resumable (start s : Flow) : Prop where
  same : start.hub.SameHistory s.hub
  stage : Stage lib candidate digest s

end

section

variable {lib : Libraries} {git : Git} {gh : Gh} {candidate : Candidate} {attest : Attest} {cut : Prop}
variable {digest : String} {start s t : Flow} {α β : Type} {r : Release} {hidden : Bool} {stock : List Asset}

theorem tagged_congr (hst : t.hub.refs = s.hub.refs) (h : Tagged candidate s) : Tagged candidate t := by
  unfold Tagged
  rw [hst]
  exact h

theorem Untagged.not_tagged (h : Untagged candidate s) : ¬ Tagged candidate s := by
  intro htagged
  unfold Untagged at h
  unfold Tagged at htagged
  rw [h] at htagged
  cases htagged

theorem Holds.alike (h : Holds candidate s r hidden stock) (hst : Alike s t) : Holds candidate t r hidden stock where
  tag := tagged_congr (by rw [hst.hub]) h.tag
  only := hst.hub ▸ h.only
  draft := h.draft
  target := h.target
  assets := h.assets
  uploads := hst.uploads.trans h.uploads

theorem Holds.mem (h : Holds candidate s r hidden stock) : r ∈ s.hub.releases := (GitHub.mem_of_named h.only).1

theorem Stage.alike (h : Stage lib candidate digest s) (hst : Alike s t) : Stage lib candidate digest t := by
  cases h with
  | bare tag none uploads =>
    refine .bare ?_ (hst.hub ▸ none) (hst.uploads.trans uploads)
    unfold Untagged Tagged
    rw [hst.hub]
    exact tag
  | drafted r held => exact .drafted r (held.alike hst)
  | stocked r zip held hzip => exact .stocked r zip (held.alike hst) hzip
  | out r zip held hzip => exact .out r zip (held.alike hst) hzip

theorem Stage.tag (h : Stage lib candidate digest s) : Untagged candidate s ∨ Tagged candidate s := by
  cases h with
  | bare tag none uploads => exact tag
  | drafted r held => exact .inr held.tag
  | stocked r zip held hzip => exact .inr held.tag
  | out r zip held hzip => exact .inr held.tag

theorem Resumable.alike (h : Resumable lib candidate digest start s) (hst : Alike s t) :
    Resumable lib candidate digest start t :=
  ⟨hst.hub ▸ h.same, h.stage.alike hst⟩

/-! A write is carried out, or it is cut off. -/

theorem write_following {method : Method} {endpoint : Endpoint} {payload : Payload} (hw : gh.dryRun = false)
    (hpossible : ∃ answer t, Carried s method endpoint payload answer t) :
    (gh.api method candidate.repo endpoint payload false).Ensures (attended candidate.repo attest cut)
      (fun t _ => t = s) (fun t out =>
        match out with
        | .ok given => ∃ answer, given = some answer ∧ Carried s method endpoint payload answer t
        | .error _ => cut ∧ (t = s ∨ ∃ answer, Carried s method endpoint payload answer t)) s := by
  unfold Gh.api
  rw [if_neg (by simp [hw])]
  refine ⟨rfl, fun reply t h => ?_⟩
  rcases h rfl with ⟨answer, rfl, hcarried⟩ | ⟨-, himpossible, -⟩ | ⟨hcut, ⟨fault, rfl, -⟩, heffect⟩
  · exact ⟨answer, rfl, hcarried⟩
  · obtain ⟨answer, u, hcarried⟩ := hpossible
    exact absurd hcarried (himpossible answer u)
  · have hend : cut ∧ (t = s ∨ ∃ answer, Carried s method endpoint payload answer t) :=
      ⟨hcut, heffect.imp id And.right⟩
    cases fault with
    | unreadable => exact hend
    | exit message => exact hend

variable (lib candidate digest start) in
/-- Every state on the way can be resumed, and it gets through unless a call is
cut off. -/
abbrev Goes (attest : Attest) (cut : Prop) (p : Script α) (fact : Flow → α → Prop) (s : Flow) : Prop :=
  p.Ensures (attended candidate.repo attest cut) (fun t _ => Resumable lib candidate digest start t)
    (fun t out =>
      match out with
      | .ok a => fact t a
      | .error _ => cut ∧ Resumable lib candidate digest start t) s

theorem Goes.bind {p : Script α} {f : α → Script β} {fact : Flow → α → Prop} {final : Flow → β → Prop}
    (h : Goes lib candidate digest start attest cut p fact s)
    (hf : ∀ t a, fact t a → Goes lib candidate digest start attest cut (f a) final t) :
    Goes lib candidate digest start attest cut (p >>= f) final s :=
  Ensures.bind h hf (fun _ _ he => he)

/-- A part that leaves GitHub alone, and whose condition holds. -/
theorem goes_of_works {p : Script α} {cond : Prop} {fact : Flow → α → Prop}
    (hs : Resumable lib candidate digest start s) (h : Works candidate.repo attest cut p cond fact s) (hc : cond) :
    Goes lib candidate digest start attest cut p (fun t a => Alike s t ∧ fact t a) s := by
  refine (Ensures.weaken h (fun t op hst => hs.alike hst)).mono ?_
  rintro t (e | a) ⟨hst, hout⟩
  · rcases hout with hcut | hn
    · exact ⟨hcut, hs.alike hst⟩
    · exact absurd hc hn
  · exact ⟨hst, hout.2⟩

theorem goes_of_reads {p : Script α} {cond : Prop} {fact : α → Prop}
    (hs : Resumable lib candidate digest start s) (h : Reads candidate.repo attest cut p cond fact s) (hc : cond) :
    Goes lib candidate digest start attest cut p (fun t a => t = s ∧ fact a) s := by
  refine (goes_of_works hs h.works hc).mono ?_
  rintro t (e | a) hout
  · exact hout
  · exact hout.2

theorem goes_write {method : Method} {endpoint : Endpoint} {payload : Payload}
    {fact : Flow → Option (Answer method endpoint) → Prop} (hw : gh.dryRun = false)
    (hs : Resumable lib candidate digest start s)
    (hpossible : ∃ answer t, Carried s method endpoint payload answer t)
    (hcarried : ∀ answer t, Carried s method endpoint payload answer t →
      Resumable lib candidate digest start t ∧ fact t (some answer)) :
    Goes lib candidate digest start attest cut (gh.api method candidate.repo endpoint payload false) fact s := by
  refine (Ensures.weaken (write_following hw hpossible) (fun t op hts => hts ▸ hs)).mono ?_
  rintro t (e | given) hout
  · obtain ⟨hcut, rfl | ⟨answer, hc⟩⟩ := hout
    · exact ⟨hcut, hs⟩
    · exact ⟨hcut, (hcarried answer t hc).1⟩
  · obtain ⟨answer, rfl, hc⟩ := hout
    exact (hcarried answer t hc).2

/-! The tag. -/

theorem tagSha_reads (h : Untagged candidate s ∨ Tagged candidate s) :
    Reads candidate.repo attest cut (tagSha gh candidate) True (fun sha =>
      sha = none ∧ Untagged candidate s ∨ sha = some candidate.sha ∧ Tagged candidate s) s := by
  have hnames : Tagged candidate s → s.hub.Names candidate.tag candidate.sha :=
    fun htag => ⟨_, htag, .inl ⟨rfl, rfl⟩⟩
  refine reads_tagSha.mono ?_
  rintro t (e | sha) ⟨rfl, hout⟩
  · refine ⟨rfl, hout.imp id (fun hn _ => hn ?_)⟩
    exact h.imp id (fun htag => ⟨_, hnames htag⟩)
  · refine ⟨rfl, trivial, ?_⟩
    cases sha with
    | none => exact .inl ⟨rfl, hout.2⟩
    | some sha =>
      rcases h with huntagged | htag
      · exact absurd hout.2 huntagged.not_names
      · exact .inr ⟨congrArg some (hout.2.unique (hnames htag)), htag⟩

theorem tagged_of_createRef {object : GitObject}
    (h : Carried s .post .refs (.ref ("refs/tags/" ++ candidate.tag) candidate.sha) object t) :
    Tagged candidate t ∧ s.hub.SameHistory t.hub ∧ t.hub.named candidate.tag = s.hub.named candidate.tag ∧
      t.uploads = s.uploads := by
  obtain ⟨hcreated, hsha⟩ := h.served
  have hobject : object = ⟨"commit", candidate.sha⟩ := by
    obtain ⟨type, sha⟩ := object
    obtain rfl : type = "commit" := h.commit
    obtain rfl : sha = candidate.sha := hsha
    rfl
  refine ⟨?_, hcreated.same, ?_, h.uploads⟩
  · unfold Tagged
    rw [hcreated.refs, Function.update_self, hobject]
  · unfold GitHub.named
    rw [hcreated.releases]

theorem createRef_possible (h : Untagged candidate s) :
    ∃ object t, Carried s .post .refs (.ref ("refs/tags/" ++ candidate.tag) candidate.sha) object t := by
  obtain ⟨hub, hcreated⟩ := GitHub.CreatesRef.exists h ⟨"commit", candidate.sha⟩
  exact ⟨_, { s with hub := hub }, ⟨hcreated, rfl⟩, rfl, rfl, rfl⟩

theorem ensureTag_goes (hw : gh.dryRun = false) (hs : Resumable lib candidate digest start s) :
    Goes lib candidate digest start attest cut (ensureTag gh candidate) (fun t _ =>
      Resumable lib candidate digest start t ∧ Tagged candidate t ∧
        t.hub.named candidate.tag = s.hub.named candidate.tag ∧ t.files = s.files) s := by
  refine (goes_of_reads hs (tagSha_reads hs.stage.tag) trivial).bind ?_
  rintro t existing ⟨rfl, ⟨rfl, huntagged⟩ | ⟨rfl, htagged⟩⟩
  · dsimp only
    rw [if_neg nofun, if_neg (by simp [hw])]
    have hbare : t.hub.named candidate.tag = [] ∧ t.uploads = 0 := by
      cases hs.stage with
      | bare tag none uploads => exact ⟨none, uploads⟩
      | drafted r held => exact absurd held.tag huntagged.not_tagged
      | stocked r zip held hzip => exact absurd held.tag huntagged.not_tagged
      | out r zip held hzip => exact absurd held.tag huntagged.not_tagged
    have hcreate : Goes lib candidate digest start attest cut
        (gh.api .post candidate.repo .refs (.ref ("refs/tags/" ++ candidate.tag) candidate.sha) false)
        (fun u _ => Resumable lib candidate digest start u ∧ Tagged candidate u ∧
          u.hub.named candidate.tag = t.hub.named candidate.tag ∧ u.files = t.files) t := by
      refine goes_write hw hs (createRef_possible huntagged) ?_
      intro object u hcarried
      obtain ⟨htagged, hsame, hnamed, huploads⟩ := tagged_of_createRef hcarried
      have hstage : Stage lib candidate digest u :=
        .bare (.inr htagged) (hnamed.trans hbare.1) (huploads.trans hbare.2)
      have hu : Resumable lib candidate digest start u := ⟨hs.same.trans hsame, hstage⟩
      exact ⟨hu, hu, htagged, hnamed, hcarried.files⟩
    exact hcreate.bind (fun u _ hu => hu)
  · dsimp only
    rw [if_pos rfl]
    exact ⟨hs, htagged, rfl, rfl⟩

/-! The draft. -/

def draftFields (candidate : Candidate) (body : String) : ReleaseFields where
  tagName := some candidate.tag
  targetCommitish := some candidate.sha
  name := some candidate.tag
  body := some body
  draft := some true
  prerelease := some (candidate.version == trialVersion)

theorem holds_of_createRelease {body : String} {answer : ReleaseAnswer} (htag : Tagged candidate s)
    (hnone : s.hub.named candidate.tag = []) (huploads : s.uploads = 0)
    (h : Carried s .post .releases (.release (draftFields candidate body)) answer t) :
    s.hub.SameHistory t.hub ∧ ∃ r, answer = r.answer ∧ Holds candidate t r true [] := by
  obtain ⟨r, hcreated, rfl⟩ := h.served
  have hdraft : r.draft = true := hcreated.draft
  have hname : r.tagName = candidate.tag := (Option.some.inj hcreated.tagName).symm
  refine ⟨hcreated.same, r, rfl, ?_⟩
  exact {
    tag := tagged_congr (hcreated.drafted hdraft) htag
    only := hcreated.named hnone hname
    draft := hdraft
    target := hcreated.targetCommitish
    assets := hcreated.assets
    uploads := h.uploads.trans huploads }

theorem createRelease_possible (s : Flow) (candidate : Candidate) (body : String) :
    ∃ answer t, Carried s .post .releases (.release (draftFields candidate body)) answer t := by
  have hexists : ∃ r hub, s.hub.CreatesRelease (draftFields candidate body) r hub :=
    GitHub.CreatesRelease.exists rfl rfl
  obtain ⟨r, hub, hcreated⟩ := hexists
  exact ⟨_, { s with hub := hub }, ⟨r, hcreated, rfl⟩, trivial, rfl, rfl⟩

/-- A draft that may have its ZIP. -/
def HoldsDraft (lib : Libraries) (candidate : Candidate) (digest : String) (s : Flow) (r : Release) : Prop :=
  Holds candidate s r true [] ∨ ∃ zip, Holds candidate s r true [zip] ∧ IsZip lib digest zip

theorem ensureDraft_goes (hw : gh.dryRun = false) (hs : Resumable lib candidate digest start s)
    (htag : Tagged candidate s) (hdraft : ∀ r ∈ s.hub.named candidate.tag, r.draft = true) (body : String) :
    Goes lib candidate digest start attest cut
      (ensureDraft gh candidate ((s.hub.named candidate.tag).head?.map Release.answer) body) (fun t out =>
        Resumable lib candidate digest start t ∧ t.files = s.files ∧
          ∃ r, out.1 = some r.answer ∧ HoldsDraft lib candidate digest t r) s := by
  cases hs.stage with
  | bare tag none uploads =>
    rw [none]
    show Goes _ _ _ _ _ _ (if gh.dryRun = true then _ else _) _ s
    rw [if_neg (by simp [hw])]
    have hcreate : Goes lib candidate digest start attest cut
        (gh.api .post candidate.repo .releases (.release (draftFields candidate body)) false)
        (fun t given => Resumable lib candidate digest start t ∧ t.files = s.files ∧
          ∃ r, given = some r.answer ∧ HoldsDraft lib candidate digest t r) s := by
      refine goes_write hw hs (createRelease_possible s candidate body) ?_
      intro answer t hcarried
      obtain ⟨hsame, r, rfl, held⟩ := holds_of_createRelease htag none uploads hcarried
      have ht : Resumable lib candidate digest start t := ⟨hs.same.trans hsame, .drafted r held⟩
      exact ⟨ht, ht, hcarried.files, r, rfl, .inl held⟩
    exact hcreate.bind (fun t given ht => ht)
  | drafted r held =>
    rw [held.only]
    exact ⟨hs, rfl, r, rfl, .inl held⟩
  | stocked r zip held hzip =>
    rw [held.only]
    exact ⟨hs, rfl, r, rfl, .inr ⟨zip, held, hzip⟩⟩
  | out r zip held hzip =>
    have hout := hdraft r (by rw [held.only]; exact List.mem_singleton_self r)
    rw [held.draft] at hout
    cases hout

end

/-! The ZIP. -/

section

variable {lib : Libraries} {git : Git} {gh : Gh} {candidate : Candidate} {attest : Attest} {cut : Prop}
variable {digest : String} {start s t : Flow} {r : Release} {zip : Asset} {hidden : Bool} {file : String}

theorem zips_answer_nil (h : r.assets = []) : zips r.answer = [] := by
  simp [zips, Release.answer, h]

theorem zips_answer_zip (h : r.assets = [zip]) (hname : zip.name = assetName) : zips r.answer = [zip.answer] := by
  simp [zips, Release.answer, Asset.answer, h, hname]

theorem getRelease_reads {stock : List Asset} (held : Holds candidate s r hidden stock) {id : Nat} (hid : r.id = id) :
    Reads candidate.repo attest cut (gh.api .get candidate.repo (.release id) .empty false) True
      (fun given => given = some r.answer) s := by
  subst hid
  refine Ensures.mono (reads_get (.release r.id) .empty false) ?_
  rintro t (e | given | answer) ⟨rfl, h⟩
  · refine ⟨rfl, h.imp id ?_⟩
    rintro ⟨-, hnone⟩
    exact absurd ⟨⟨r, held.mem, rfl, rfl⟩, rfl⟩ (hnone _)
  · cases h.1
  · obtain ⟨⟨other, hother, hid, rfl⟩, -⟩ := h
    obtain rfl : other = r := GitHub.release_eq hother held.mem hid
    exact ⟨rfl, trivial, rfl⟩

theorem readback_goes (hs : Resumable lib candidate digest start s) (held : Holds candidate s r hidden [zip])
    (hzip : IsZip lib digest zip) (target : String) :
    Goes lib candidate digest start attest cut (downloadAsset lib candidate zip.answer target)
      (fun t loaded => Alike s t ∧ loaded = digest) s := by
  have hmem : zip ∈ r.assets := by
    rw [held.assets]
    exact List.mem_singleton_self zip
  refine (goes_of_works hs (downloadAsset_works held.mem hmem target) trivial).mono ?_
  rintro t (e | loaded) hout
  · exact hout
  · exact ⟨hout.1, hout.2.1.trans hzip.digest⟩

def Ready (lib : Libraries) (digest : String) (files : String → Option Bytes) (file : String) : Prop :=
  ∃ content, files file = some content ∧ lib.sha256 content = digest

theorem holds_of_upload {answer : AssetAnswer} (held : Holds candidate s r true [])
    (hfile : Ready lib digest s.files file)
    (h : Carried s .post (.assets r.id assetName) (.file file) answer t) :
    s.hub.SameHistory t.hub ∧ ∃ r' zip, r'.id = r.id ∧ Holds candidate t r' true [zip] ∧ IsZip lib digest zip := by
  obtain ⟨asset, hstores, hname, hread, -⟩ := h.served
  obtain ⟨stored, honly, hid, hdraft, htarget, hassets⟩ := hstores.named held.only rfl
  obtain ⟨content, hcontent, hdigest⟩ := hfile
  obtain rfl : content = asset.content := Option.some.inj (hcontent.symm.trans hread)
  have held' : Holds candidate t stored true [asset] := {
    tag := tagged_congr hstores.refs held.tag
    only := honly
    draft := hdraft.trans held.draft
    target := htarget.trans held.target
    assets := by rw [hassets, held.assets, List.nil_append]
    uploads := by rw [h.uploads, held.uploads]; rfl }
  exact ⟨hstores.same, stored, asset, hid, held', hname, hdigest⟩

theorem upload_possible (held : Holds candidate s r true []) (hfile : Ready lib digest s.files file) :
    ∃ answer t, Carried s .post (.assets r.id assetName) (.file file) answer t := by
  obtain ⟨content, hcontent, -⟩ := hfile
  obtain ⟨asset, hub, hstores, hname, rfl⟩ := GitHub.StoresAsset.exists held.mem held.assets assetName content
  exact ⟨_, { s with hub := hub, uploads := s.uploads + 1 }, ⟨asset, hstores, hname, hcontent, rfl⟩, trivial, rfl, rfl⟩

theorem upload_goes (hw : gh.dryRun = false) (hs : Resumable lib candidate digest start s)
    (held : Holds candidate s r true []) (hfile : Ready lib digest s.files file) :
    Goes lib candidate digest start attest cut
      (catchFailure (do let _ ← gh.api .post candidate.repo (.assets r.id assetName) (.file file) false)
        (fun _ => .done ()))
      (fun t _ => Resumable lib candidate digest start t ∧ (cut ∧ t = s ∨
        ∃ r' zip, r'.id = r.id ∧ Holds candidate t r' true [zip] ∧ IsZip lib digest zip)) s := by
  have hstocked : ∀ answer t, Carried s .post (.assets r.id assetName) (.file file) answer t →
      Resumable lib candidate digest start t ∧
        ∃ r' zip, r'.id = r.id ∧ Holds candidate t r' true [zip] ∧ IsZip lib digest zip := by
    intro answer t hcarried
    obtain ⟨hsame, r', zip, hid, held', hzip⟩ := holds_of_upload held hfile hcarried
    exact ⟨⟨hs.same.trans hsame, .stocked r' zip held' hzip⟩, r', zip, hid, held', hzip⟩
  have hcall : (do let _ ← gh.api .post candidate.repo (.assets r.id assetName) (.file file) false :
      Script Unit).Ensures (attended candidate.repo attest cut)
      (fun t _ => Resumable lib candidate digest start t)
      (fun t out => Resumable lib candidate digest start t ∧
        ((∃ r' zip, r'.id = r.id ∧ Holds candidate t r' true [zip] ∧ IsZip lib digest zip) ∨ cut ∧ t = s) ∧
        (out = .ok () ∨ cut)) s := by
    refine Ensures.bind (Ensures.weaken (write_following hw (upload_possible held hfile)) ?_) ?_ ?_
    · exact fun t op hts => hts ▸ hs
    · rintro t given ⟨answer, -, hcarried⟩
      obtain ⟨ht, hzip⟩ := hstocked answer t hcarried
      exact ⟨ht, .inl hzip, .inl rfl⟩
    · rintro t e ⟨hcut, rfl | ⟨answer, hcarried⟩⟩
      · exact ⟨hs, .inr ⟨hcut, rfl⟩, .inr hcut⟩
      · obtain ⟨ht, hzip⟩ := hstocked answer t hcarried
        exact ⟨ht, .inl hzip, .inr hcut⟩
  unfold catchFailure
  refine Ensures.tryCatch hcall ?_ ?_
  · rintro t _ ⟨ht, hstage, -⟩
    exact ⟨ht, hstage.symm⟩
  · rintro t e ⟨ht, hstage, hend⟩
    have hcut : cut := hend.resolve_left nofun
    cases e with
    | failure message => exact ⟨ht, hstage.symm⟩
    | stop message => exact ⟨hcut, ht⟩
    | crash name => exact ⟨hcut, ht⟩

theorem ensureAsset_goes (hw : gh.dryRun = false) (hs : Resumable lib candidate digest start s)
    (hheld : HoldsDraft lib candidate digest s r) (hfile : Ready lib digest s.files file) (workdir : String) :
    Goes lib candidate digest start attest cut (ensureAsset lib gh candidate r.answer file digest workdir)
      (fun t _ => Resumable lib candidate digest start t ∧
        ∃ r' zip, r'.id = r.id ∧ Holds candidate t r' true [zip] ∧ IsZip lib digest zip) s := by
  unfold ensureAsset
  rcases hheld with held | ⟨zip, held, hzip⟩
  · rw [zips_answer_nil held.assets]
    dsimp only
    rw [if_neg (by simp [hw])]
    refine (upload_goes hw hs held hfile).bind ?_
    rintro t _ ⟨ht, ⟨hcut, rfl⟩ | ⟨r', zip, hid, held', hzip⟩⟩
    · refine (goes_of_reads ht (getRelease_reads held rfl) trivial).bind ?_
      rintro u given ⟨rfl, rfl⟩
      dsimp only
      rw [zips_answer_nil held.assets]
      exact ⟨hcut, ht⟩
    · refine (goes_of_reads ht (getRelease_reads held' hid) trivial).bind ?_
      rintro u given ⟨rfl, rfl⟩
      dsimp only
      rw [zips_answer_zip held'.assets hzip.name]
      dsimp only
      refine (readback_goes ht held' hzip _).bind ?_
      rintro v loaded ⟨huv, hloaded⟩
      rw [if_neg (not_not.mpr hloaded)]
      exact ⟨ht.alike huv, r', zip, hid, held'.alike huv, hzip⟩
  · rw [zips_answer_zip held.assets hzip.name]
    dsimp only
    refine (readback_goes hs held hzip _).bind ?_
    rintro t loaded ⟨hst, hloaded⟩
    rw [if_pos hloaded]
    exact ⟨hs.alike hst, r, zip, rfl, held.alike hst, hzip⟩

/-! The last call, and all from the tag to it. -/

theorem patch_goes (hw : gh.dryRun = false) (hs : Resumable lib candidate digest start s)
    (held : Holds candidate s r true [zip]) (hzip : IsZip lib digest zip) {id : Nat} (hid : r.id = id)
    (latest : Bool) :
    Goes lib candidate digest start attest cut
      (gh.api .patch candidate.repo (.release id) (.release (GitHub.publishingFields (toString latest))) false)
      (fun t _ => Resumable lib candidate digest start t ∧ Out lib candidate digest t) s := by
  subst hid
  refine goes_write hw hs ?_ ?_
  · obtain ⟨hub, hupdates⟩ := GitHub.UpdatesRelease.exists (s := s.hub) r.id (toString latest)
    have hmem := (GitHub.mem_of_named (hupdates.named held.only)).1
    exact ⟨_, { s with hub := hub }, ⟨hupdates, _, hmem, rfl, rfl⟩, trivial, rfl, rfl⟩
  · intro answer t hcarried
    obtain ⟨hupdates, -⟩ := hcarried.served
    have held' : Holds candidate t { r with draft := false } false [zip] := {
      tag := hupdates.refs _ _ held.tag
      only := hupdates.named held.only
      draft := rfl
      target := held.target
      assets := held.assets
      uploads := hcarried.uploads.trans held.uploads }
    have ht : Resumable lib candidate digest start t := ⟨hs.same.trans hupdates.same, .out _ zip held' hzip⟩
    exact ⟨ht, ht, _, zip, held', hzip⟩

theorem publish_goes (hw : gh.dryRun = false) (hs : Resumable lib candidate digest start s)
    (hdraft : ∀ r ∈ s.hub.named candidate.tag, r.draft = true) (hfile : Ready lib digest s.files file)
    (arguments : Arguments) (body : String) (latest : Bool) :
    Goes lib candidate digest start attest cut
      (publish lib gh candidate arguments ((s.hub.named candidate.tag).head?.map Release.answer) body latest file
        digest)
      (fun t _ => Resumable lib candidate digest start t ∧ Out lib candidate digest t) s := by
  unfold publish
  refine (ensureTag_goes hw hs).bind ?_
  rintro t _ ⟨ht, htag, hnamed, hfiles⟩
  rw [← hnamed] at hdraft ⊢
  refine (ensureDraft_goes hw ht htag hdraft body).bind ?_
  rintro u out ⟨hu, hfiles', r, hr, held⟩
  rw [hr]
  have hfile' : Ready lib digest u.files file := by
    rw [hfiles', hfiles]
    exact hfile
  refine (ensureAsset_goes hw hu held hfile' arguments.workdir).bind ?_
  rintro v _ ⟨hv, r', zip, hid, held', hzip⟩
  exact (patch_goes hw hv held' hzip hid latest).bind (fun w _ hw => hw)

/-! A release that is out is left alone. -/

theorem checkPublished_out {numbers : List Int} {built : Bytes}
    (hversion : versionNumbers lib candidate.version = .ok numbers)
    (hbuilt : build lib git candidate.sha = .ok built) (held : Holds candidate s r hidden [zip])
    (hzip : IsZip lib (lib.sha256 built) zip) (workdir : String) :
    Works candidate.repo attest cut (checkPublished lib git gh candidate r.answer workdir) True
      (fun _ checks => ∀ check ∈ checks, check.ok = true ∨ check.blocking = false) s := by
  have hmem : zip ∈ r.assets := by
    rw [held.assets]
    exact List.mem_singleton_self zip
  refine (tagSha_reads (.inr held.tag)).works.bind id ?_
  rintro t tag - - ⟨rfl, ⟨rfl, huntagged⟩ | ⟨rfl, -⟩⟩
  · exact absurd held.tag huntagged.not_tagged
  refine (versionNumbers_reads hversion).works.bind id ?_
  rintro u given - - ⟨rfl, rfl⟩
  dsimp only
  rw [zips_answer_zip held.assets hzip.name]
  dsimp only
  refine (buildZip_works candidate.sha _).bind (fun _ => ⟨built, hbuilt⟩) ?_
  rintro v expected huv - ⟨built', hbuilt', rfl, -⟩
  obtain rfl : built' = built := Except.ok.inj (hbuilt'.symm.trans hbuilt)
  refine (downloadAsset_works (held.alike huv).mem hmem _).bind id ?_
  rintro w actual - - ⟨rfl, -⟩
  have hcontent : ∀ predates : Bool, Works candidate.repo attest cut
      (contentCheck lib candidate candidate.sha predates (lib.sha256 built') (lib.sha256 zip.content)
        (join workdir "from-tag.zip") (join workdir "published.zip")) True (fun _ check => check.ok = true) w := by
    intro predates
    unfold contentCheck
    rw [if_pos hzip.digest]
    exact works_done trivial rfl
  refine (hcontent _).bind id ?_
  rintro x content - - hok
  rw [if_pos hok]
  refine (attestationCheck_reads _ _).works.bind id ?_
  rintro y attested - - ⟨-, hblocking, -⟩
  refine works_done trivial ?_
  simp only [List.mem_cons, List.not_mem_nil, or_false]
  rintro check (rfl | rfl | rfl)
  · exact .inl rfl
  · exact .inl hok
  · exact .inr hblocking

theorem run_out_works {numbers : List Int} {built : Bytes}
    (hversion : versionNumbers lib candidate.version = .ok numbers)
    (hbuilt : build lib git candidate.sha = .ok built) (held : Holds candidate s r false [zip])
    (hzip : IsZip lib (lib.sha256 built) zip) {arguments : Arguments} (hlax : arguments.strict = false) :
    Works candidate.repo attest cut (run lib git gh candidate arguments) True (fun _ _ => True) s := by
  refine (findRelease_reads held.only (Nat.le_refl 1)).works.bind id ?_
  rintro t found - - ⟨rfl, hfound⟩
  obtain rfl : found = some r.answer := hfound
  have hdraft : (r.answer.draft.getD false) = false := held.draft
  have hkept : (some r.answer).filter (fun r => !r.draft.getD false) = some r.answer :=
    Option.filter_some_pos (by simp [hdraft])
  dsimp only
  rw [if_neg (by simp [hlax]), hkept]
  refine (checkPublished_out hversion hbuilt held hzip arguments.workdir).bind id ?_
  rintro u checks - - hchecks
  have hnone : checks.filter (fun check => !check.ok && (check.blocking || arguments.strict)) = [] := by
    rw [List.filter_eq_nil_iff]
    intro check hcheck
    rcases hchecks check hcheck with hok | hblocking
    · simp [hok]
    · simp [hblocking, hlax]
  rw [hnone]
  exact (writeOutcome_reads "noop").works.mono Iff.rfl (fun _ _ _ _ => trivial)

end

end OnestiLock.ReleasePublish
