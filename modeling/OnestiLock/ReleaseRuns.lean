import OnestiLock.ReleaseSteps

/-! Over every run of the release script: what it publishes hangs together, and
nothing that was there is moved, replaced or rewritten. -/

namespace OnestiLock.ReleasePublish

open Program

section

variable {lib : Libraries} {git : Git} {gh : Gh} {candidate : Candidate} {trial : Bool} {s : Scene}

theorem hangsTogether {r : ReleaseAnswer} {digest : String} (hbuilt : Built lib git candidate.sha digest)
    (hattested : Attested candidate s digest) (hmain : OnMain candidate trial s)
    (htag : s.1.hub.Resolves candidate.tag candidate.sha) (hheld : Held candidate s r)
    (htarget : OnCandidate candidate r) (hstocked : Stocked lib candidate s r.id digest) :
    ∃ built release zip, HangsTogether lib git candidate trial s r.id built release zip := by
  obtain ⟨built, hfresh, rfl⟩ := hbuilt
  obtain ⟨release, hlisted, hid, hname, htext, -⟩ := hheld
  obtain ⟨other, hother, hid', zip, hzip, hzname, hdigest, hlog⟩ := hstocked
  have heq : other = release := GitHub.release_eq hother hlisted (hid'.trans hid.symm)
  subst heq
  have hown : isFullSha other.targetCommitish = true → other.targetCommitish = candidate.sha := by
    intro hfull
    have h := htarget
    rw [OnCandidate, htext, Option.getD_some] at h
    exact h hfull
  exact ⟨built, other, zip, hfresh, hlisted, hid, hname, hown, htag, hzip, hzname, hdigest, hlog,
    hattested.there, hattested.verified, hmain⟩

theorem patch_establishes {id : Nat} {latest : Bool}
    (h : ∃ built release zip, HangsTogether lib git candidate trial s id built release zip) :
    Establishes lib git candidate trial
      (gh.api .patch candidate.repo (.release id) (.release {
        draft := some false
        makeLatest := some (toString latest) }) false) s (fun _ _ => True) := by
  obtain ⟨built, release, zip, h⟩ := h
  exact .api (.publish h) (fun _ _ _ _ => trivial) (fun _ _ => trivial)

theorem publish_establishes (hw : gh.dryRun = false) (arguments : Arguments) {release : Option ReleaseAnswer}
    {digest : String} (hbuilt : Built lib git candidate.sha digest) (hattested : Attested candidate s digest)
    (hmain : OnMain candidate trial s)
    (hrelease : ∀ r, release = some r → Held candidate s r ∧ OnCandidate candidate r)
    (body zip : String) (latest : Bool) :
    Establishes lib git candidate trial
      (publish lib gh candidate arguments release body latest zip digest) s (fun _ _ => True) := by
  refine (ensureTag_establishes hw s).bind (fun t _ hst htag => ?_)
  have hrelease' : ∀ r, release = some r → Held candidate t r ∧ OnCandidate candidate r :=
    fun r hr => ⟨(hrelease r hr).1.since hst, (hrelease r hr).2⟩
  refine (ensureDraft_establishes hw body hrelease').bind (fun u draft htu hdraft => ?_)
  split
  · exact .fail _
  · rename_i r hr
    obtain ⟨hheld, htarget⟩ := hdraft r hr
    refine (ensureAsset_establishes hw hheld zip digest arguments.workdir).bind (fun v _ huv hstocked => ?_)
    have htv : Since t v := htu.trans huv
    have hsv : Since s v := hst.trans htv
    have htogether : ∃ built release zip, HangsTogether lib git candidate trial v r.id built release zip :=
      hangsTogether hbuilt (hattested.since hsv) (hmain.since hsv) (htag.kept htv.hub) (hheld.since huv)
        htarget hstocked
    exact (patch_establishes htogether).bind (fun _ _ _ _ => .done trivial)

theorem run_establishes (hw : gh.dryRun = false) (arguments : Arguments)
    (ha : arguments.requireAttestation = true) (s : Scene) :
    Establishes lib git candidate arguments.trial (run lib git gh candidate arguments) s (fun _ _ => True) := by
  refine (findRelease_establishes s).bind (fun t release _ hfound => ?_)
  split
  · exact .fail _
  · split
    · exact proved_establishes arguments _ t
    · refine (requireMainBranch_establishes t).bind (fun t₁ _ hs₁ hmain => ?_)
      have hcheck : Establishes lib git candidate arguments.trial
          (raised (release.elim (.ok ()) (requireDraftOnCandidate candidate))) t₁
          (fun _ _ => ∀ r, release = some r → OnCandidate candidate r) := by
        refine .raised (fun u hu r hr => ?_)
        subst hr
        exact requireDraftOnCandidate_ok hu
      refine hcheck.bind (fun t₂ _ hs₂ htarget => ?_)
      refine (writeOutcome_establishes "ready" candidate t₂).bind (fun t₃ _ hs₃ _ => ?_)
      refine (candidateZip_establishes arguments t₃).bind (fun t₄ zip hs₄ hbuilt => ?_)
      refine (verifyAttestation_establishes candidate.sha zip.1 zip.2 t₄).bind (fun t₅ _ hs₅ hattested => ?_)
      have hbody : Establishes lib git candidate arguments.trial
          (raised (buildBody git candidate arguments.releaseNote zip.2)) t₅ (fun _ _ => True) :=
        .raised (fun _ _ => trivial)
      refine hbody.bind (fun t₆ body hs₆ _ => ?_)
      refine (shouldBeLatest_establishes t₆).bind (fun t₇ latest hs₇ _ => ?_)
      split
      · exact (ensureTag_establishes hw t₇).bind (fun _ _ _ _ => .done trivial)
      · have hs₂₇ : Since t₁ t₇ := hs₂.trans (hs₃.trans (hs₄.trans (hs₅.trans (hs₆.trans hs₇))))
        refine publish_establishes hw arguments hbuilt (hattested.since (hs₆.trans hs₇)) (hmain.since hs₂₇) ?_
          body zip.1 latest
        intro r hr
        exact ⟨(hfound r hr).since (hs₁.trans hs₂₇), htarget r hr⟩

theorem Allowed.publishing_eq {repo : String} {id : Nat} {fields : ReleaseFields}
    (h : Allowed lib git candidate trial s (.api .patch repo (.release id) (.release fields))) :
    repo = candidate.repo ∧ ∃ built release zip, HangsTogether lib git candidate trial s id built release zip := by
  cases h with
  | quiet hq => cases hq
  | @publish _ _ built release zip h => exact ⟨rfl, built, release, zip, h⟩

/-- At every point a run reaches, with every call answered or not: if it is about
to publish a release, that release hangs together; and from there on every ref,
every asset and every release's text stays as it is. -/
theorem published_hangs_together (lib : Libraries) (git : Git) (gh : Gh) (hw : gh.dryRun = false)
    (candidate : Candidate) (arguments : Arguments) (ha : arguments.requireAttestation = true)
    (site : Site) {s : Scene} {q : Script Unit}
    (h : Steps (recording (answers candidate.repo)) (site, []) (run lib git gh candidate arguments) s q) :
    (∀ repo id fields next, q = .call (.api .patch repo (.release id) (.release fields)) next →
      fields.draft = some false →
      ∃ built release zip, HangsTogether lib git candidate arguments.trial s id built release zip) ∧
    (∀ t q', Steps (recording (answers candidate.repo)) s q t q' → s.1.hub.Kept t.1.hub) := by
  have hrun : Establishes lib git candidate arguments.trial (run lib git gh candidate arguments) (site, [])
      (fun _ _ => True) := run_establishes hw arguments ha (site, [])
  have hrest := Ensures.of_steps hrun h
  constructor
  · intro repo id fields next hq _
    subst hq
    exact hrest.1.publishing_eq.2
  · intro t q' hsteps
    have hsince : Since s t := Ensures.within_of_steps Since.refl (fun _ _ _ => Since.trans)
      (fun _ _ _ _ => Allowed.since) hrest hsteps
    exact hsince.hub

end

/-! A run that finds tag, draft and ZIP of an earlier one in place. -/

def found {α : Type} : Option α → Except Fault (Option α)
  | some a => .ok (some a)
  | none => .error (.exit "gh: Not Found (HTTP 404)")

/-- A GitHub that answers reads, and refuses everything else. -/
def served (s : GitHub) : (method : Method) → (endpoint : Endpoint) → Except Fault (Option (Answer method endpoint))
  | .get, .repository => .ok (some (some s.defaultBranch))
  | .get, .comparison base head => found ((s.compare base head).map some)
  | .get, .ref name => found (s.refs ("refs/" ++ name))
  | .get, .tagObject sha => found (s.tagObjects sha)
  | .get, .releases => .ok (some (s.releases.map Release.answer))
  | .get, .latest => found ((s.releases.find? (fun r => !r.draft)).map Release.answer)
  | _, _ => .error (.exit "gh: Service Unavailable (HTTP 503)")

def verified (s : GitHub) (repo source signer : String) : List AttestationAnswer :=
  (s.attestations.filter (fun a => a.repo = repo ∧ a.sourceDigest = source ∧ a.signerWorkflow = signer)).map
    (fun a => a.subjects.map some)

def reading (s : Site) : (op : Op) → Reply op × Site
  | .api method _ endpoint _ => (served s.hub method endpoint, s)
  | .raw _ id =>
    (match (s.hub.releases.flatMap Release.assets).find? (fun a => a.id = id) with
      | some asset => .ok asset.content
      | none => .error "gh: Not Found (HTTP 404)", s)
  | .attestation _ repo source signer => (.ok (some (verified s.hub repo source signer)), s)
  | .readFile file =>
    (match s.files file with
      | some content => .ok content
      | none => .error "FileNotFoundError", s)
  | .writeFile file content => (.ok (), { s with files := Function.update s.files file (some content) })
  | .writeOutcome _ _ => (.ok (), s)

section

variable {s : GitHub} {read : String → Option Bytes} {payload : Payload}

theorem refused_replies {method : Method} {endpoint : Endpoint} {message : String} :
    s.Replies read method endpoint payload (.error (.exit message)) s :=
  .inr (.inl ⟨⟨_, rfl⟩, .inl rfl⟩)

theorem found_replies {endpoint : Endpoint} {given : Option (Answer .get endpoint)}
    (h : ∀ answer, given = some answer → s.Serves read .get endpoint payload answer s) :
    s.Replies read .get endpoint payload (found given) s := by
  cases given with
  | some answer => exact .inl ⟨answer, rfl, h answer rfl⟩
  | none => exact refused_replies

theorem served_replies (method : Method) (endpoint : Endpoint) :
    s.Replies read method endpoint payload (served s method endpoint) s := by
  cases method with
  | get =>
    cases endpoint with
    | repository => exact .inl ⟨_, rfl, rfl, rfl⟩
    | comparison base head => exact found_replies (fun answer ha => ⟨ha, rfl⟩)
    | ref name => exact found_replies (fun answer ha => ⟨ha, rfl⟩)
    | tagObject sha => exact found_replies (fun answer ha => ⟨ha, rfl⟩)
    | releases => exact .inl ⟨_, rfl, ⟨_, .refl _, rfl⟩, rfl⟩
    | latest =>
      refine found_replies (fun answer ha => ⟨?_, rfl⟩)
      obtain ⟨r, hr, rfl⟩ := Option.map_eq_some_iff.mp ha
      have hdraft : (!r.draft) = true := List.find?_some (p := fun r : Release => !r.draft) hr
      exact ⟨r, List.mem_of_find?_eq_some hr, by simpa using hdraft, rfl⟩
    | _ => exact refused_replies
  | _ => exact refused_replies

end

theorem answers_reading (repo : String) (s : Site) (op : Op) :
    answers repo s op (reading s op).1 (reading s op).2 := by
  cases op with
  | api method of endpoint payload => exact fun _ => ⟨served_replies method endpoint, rfl⟩
  | raw of id =>
    refine fun _ => ⟨fun content hc => ?_, rfl⟩
    dsimp only [reading] at hc
    split at hc
    · rename_i asset hfind
      obtain ⟨release, hr, ha⟩ := List.mem_flatMap.mp (List.mem_of_find?_eq_some hfind)
      have hid : decide (asset.id = id) = true := List.find?_some (p := fun a : Asset => decide (a.id = id)) hfind
      exact ⟨release, hr, asset, ha, of_decide_eq_true hid, Except.ok.inj hc⟩
    · cases hc
  | attestation zip of source signer =>
    refine fun _ => ⟨rfl, fun given hg answer hanswer => ?_⟩
    cases hg
    obtain ⟨a, ha, rfl⟩ := List.mem_map.mp hanswer
    obtain ⟨hmem, hmatch⟩ := List.mem_filter.mp ha
    obtain ⟨hrepo, hsource, hsigner⟩ := of_decide_eq_true hmatch
    exact ⟨a, hmem, hrepo, hsource, hsigner, rfl⟩
  | readFile file =>
    refine ⟨rfl, fun content hc => ?_⟩
    dsimp only [reading] at hc
    split at hc
    · rename_i content' hfile
      rw [hfile, Except.ok.inj hc]
    · cases hc
  | writeFile file content =>
    refine ⟨rfl, fun _ => ?_⟩
    show Function.update s.files file (some content) file = some content
    rw [Function.update_self]
  | writeOutcome outcome candidate => exact rfl

/-! A repository whose last run stopped before its last call: an annotated tag, a
draft with the ZIP, and an attestation of it. -/

namespace Rehearsal

def sha : String := "0123456789abcdef0123456789abcdef01234567"

def candidate : Candidate := ⟨"owner/onesti-lock", sha, "1.5.0"⟩

def manifest : Bytes := [123, 125]

def lib : Libraries where
  sha256 content := String.ofList (content.map (fun b => Char.ofNat b.toNat))
  importFroms _ := .ok []
  archive members := members.flatMap Member.content
  unpack content := .ok [("manifest.json", content)]
  decimal c := if c.isDigit then some (c.toNat - '0'.toNat) else none
  decimal_ascii _ h := if_pos h

def git : Git where
  text argv :=
    if argv.head? = some "ls-tree" then
      .ok ("100644 blob e0a1\t" ++ component ++ "/manifest.json\x00")
    else .ok ""
  raw _ := .ok manifest

def arguments : Arguments where
  workdir := "dist"
  releaseNote _ := .ok "A note."
  zipPath := none
  planOnly := false
  requireAttestation := true
  strict := false
  trial := false

def draft : Release where
  id := 7
  tagName := "v1.5.0"
  targetCommitish := sha
  body := some "By hand."
  draft := true
  assets := [⟨8, assetName, manifest⟩]
  names := List.nodup_singleton _

def hub : GitHub where
  defaultBranch := "main"
  compare base head := if base = "main" ∧ head = sha then some "behind" else none
  refs name := if name = "refs/tags/v1.5.0" then some ⟨"tag", "fedc"⟩ else none
  tagObjects name := if name = "fedc" then some ⟨"commit", sha⟩ else none
  releases := [draft]
  attestations := [⟨"owner/onesti-lock", sha, "owner/onesti-lock/.github/workflows/release.yml",
    [lib.sha256 manifest]⟩]
  defaultBranch_ne := by decide
  releaseIds := List.nodup_singleton _
  assetIds := List.nodup_singleton _

/-- Up to the last call of its next run. -/
def resumed : Script Unit × Scene :=
  (run lib git ⟨"owner/onesti-lock", false⟩ candidate arguments).advance (recorded reading) 13
    (⟨hub, fun _ => none⟩, [])

theorem resumed_waits : resumed.1.waits = some (publishing "owner/onesti-lock" 7 true) := by decide +kernel

end Rehearsal

theorem published_hangs_together_rehearsal :
    ∃ (s : Scene) (next : Reply (publishing "owner/onesti-lock" 7 true) → Script Unit),
      Steps (recording (answers "owner/onesti-lock")) (⟨Rehearsal.hub, fun _ => none⟩, [])
        (run Rehearsal.lib Rehearsal.git ⟨"owner/onesti-lock", false⟩ Rehearsal.candidate Rehearsal.arguments)
        s (.call (publishing "owner/onesti-lock" 7 true) next) ∧
      (∃ built release zip,
        HangsTogether Rehearsal.lib Rehearsal.git Rehearsal.candidate false s 7 built release zip) ∧
      ∀ t q', Steps (recording (answers "owner/onesti-lock")) s
        (.call (publishing "owner/onesti-lock" 7 true) next) t q' → s.1.hub.Kept t.1.hub := by
  obtain ⟨next, hnext⟩ := waits_eq_some Rehearsal.resumed_waits
  have hsteps : Steps (recording (answers "owner/onesti-lock")) (⟨Rehearsal.hub, fun _ => none⟩, [])
      (run Rehearsal.lib Rehearsal.git ⟨"owner/onesti-lock", false⟩ Rehearsal.candidate Rehearsal.arguments)
      Rehearsal.resumed.2 Rehearsal.resumed.1 :=
    steps_advance (recording_recorded (answers_reading _)) 13 _ _
  rw [hnext] at hsteps
  obtain ⟨htogether, hkept⟩ := published_hangs_together Rehearsal.lib Rehearsal.git ⟨"owner/onesti-lock", false⟩
    rfl Rehearsal.candidate Rehearsal.arguments rfl _ hsteps
  exact ⟨_, next, hsteps, htogether _ 7 _ next rfl rfl, hkept⟩

end OnestiLock.ReleasePublish
