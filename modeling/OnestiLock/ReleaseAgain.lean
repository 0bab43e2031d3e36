import OnestiLock.ReleaseResume

/-! Over any number of interrupted runs: the next run that is left alone ends
with the release out, and its ZIP uploaded once. -/

namespace OnestiLock.ReleasePublish

open Program

section

variable (lib : Libraries) (git : Git) (candidate : Candidate) (attest : Attest) (arguments : Arguments)

/-- What a run needs to get as far as the tag. -/
structure Fit (s : Flow) (built : Bytes) : Prop where
  lax : arguments.strict = false
  whole : arguments.planOnly = false
  releasable : Releasable candidate arguments.trial s.hub
  fresh : build lib git candidate.sha = .ok built
  handed : Handed lib arguments s.files built
  attested : arguments.requireAttestation = true →
    Verified attest candidate (handedOver arguments s.files built) (lib.sha256 built)
  body : ∃ text, buildBody git candidate arguments.releaseNote (lib.sha256 built) = .ok text

end

section

variable {lib : Libraries} {git : Git} {gh : Gh} {candidate : Candidate} {attest : Attest} {cut : Prop}
variable {arguments : Arguments} {start s t : Flow} {built : Bytes}

/-- A ZIP that was handed over is the same again. -/
def SameZip (arguments : Arguments) (files files' : String → Option Bytes) : Prop :=
  ∀ zip ∈ arguments.zipPath, files' zip = files zip

theorem SameZip.handedOver (h : SameZip arguments s.files t.files) (built : Bytes) :
    handedOver arguments t.files built = handedOver arguments s.files built := by
  unfold ReleasePublish.handedOver
  split
  · rfl
  · rename_i zip hzip
    rw [h zip hzip]

theorem Fit.again (h : Fit lib git candidate attest arguments s built) (hsame : s.hub.SameHistory t.hub)
    (hzip : SameZip arguments s.files t.files) : Fit lib git candidate attest arguments t built where
  lax := h.lax
  whole := h.whole
  releasable := by
    have hreleasable := h.releasable
    unfold Releasable GitHub.OnDefaultBranch at hreleasable ⊢
    rw [hsame.compare, hsame.defaultBranch]
    exact hreleasable
  fresh := h.fresh
  handed := by
    intro zip hmem
    rw [hzip zip hmem]
    exact h.handed zip hmem
  attested := by
    rw [hzip.handedOver]
    exact h.attested
  body := h.body

theorem Works.before {α β : Type} {p : Script α} {f : α → Script β} {cond : Prop} {fact : Flow → α → Prop}
    {guard : Flow → Op → Prop} {post : Flow → Except Halt β → Prop}
    (h : Works candidate.repo attest cut p cond fact s) (hguard : ∀ t op, Alike s t → guard t op)
    (herror : ∀ t e, Alike s t → cut ∨ ¬ cond → post t (.error e))
    (hf : ∀ t a, Alike s t → cond → fact t a → (f a).Ensures (attended candidate.repo attest cut) guard post t) :
    (p >>= f).Ensures (attended candidate.repo attest cut) guard post s := by
  refine Ensures.bind (Ensures.weaken h (fun t op hst => hguard t op hst)) ?_ ?_
  · rintro t a ⟨hst, hc, ha⟩
    exact hf t a hst hc ha
  · rintro t e ⟨hst, he⟩
    exact herror t e hst he

/-- The release may be taken up: there is none, or a draft for the candidate. -/
structure Open (candidate : Candidate) (s : Flow) : Prop where
  one : (s.hub.named candidate.tag).length ≤ 1
  drafts : ∀ r ∈ s.hub.named candidate.tag, r.draft = true ∧ r.targetCommitish = candidate.sha

theorem Open.answer (h : Open candidate s) :
    ((s.hub.named candidate.tag).head?.map Release.answer).all (fun r => r.draft.getD false) = true ∧
      ((s.hub.named candidate.tag).head?.map Release.answer).filter (fun r => !r.draft.getD false) = none ∧
      ((s.hub.named candidate.tag).head?.map Release.answer).elim (.ok ()) (requireDraftOnCandidate candidate) =
        .ok () := by
  have hdrafts := h.drafts
  cases hnamed : s.hub.named candidate.tag with
  | nil => exact ⟨rfl, rfl, rfl⟩
  | cons r rest =>
    obtain ⟨hdraft, htarget⟩ := hdrafts r (by rw [hnamed]; exact List.mem_cons_self)
    have hanswer : (r.answer.draft.getD false) = true := hdraft
    have hown : requireDraftOnCandidate candidate r.answer = .ok () := by
      unfold requireDraftOnCandidate
      have hcommit : r.answer.targetCommitish.getD "" = candidate.sha := htarget
      dsimp only
      rw [hcommit, if_neg (by simp)]
    refine ⟨?_, ?_, hown⟩
    · simp [hanswer]
    · simp [Option.filter, hanswer]

/-- A run over an open release comes to its tag if it fits, and stops before if not. -/
theorem run_to_publish {guard : Flow → Op → Prop} {post : Flow → Except Halt Unit → Prop}
    (laws : DecimalLaws lib) (hversion : isVersion lib candidate.version = true) (hopen : Open candidate s)
    (hguard : ∀ t op, Alike s t → guard t op)
    (herror : ∀ t e, Alike s t → (cut ∨ ¬ ∃ built, Fit lib git candidate attest arguments s built) →
      post t (.error e))
    (hplan : ∀ t, Alike s t → arguments.planOnly = true →
      (do let _ ← ensureTag gh candidate : Script Unit).Ensures (attended candidate.repo attest cut) guard post t)
    (hgo : ∀ t built zip body latest, Alike s t → Fit lib git candidate attest arguments s built →
      Ready lib (lib.sha256 built) t.files zip →
      (publish lib gh candidate arguments ((s.hub.named candidate.tag).head?.map Release.answer) body latest zip
        (lib.sha256 built)).Ensures (attended candidate.repo attest cut) guard post t) :
    (run lib git gh candidate arguments).Ensures (attended candidate.repo attest cut) guard post s := by
  obtain ⟨hall, hnone, hown⟩ := hopen.answer
  have hunfit : ∀ t e, Alike s t → ∀ cond : Prop, (∀ built, Fit lib git candidate attest arguments s built → cond) →
      (cut ∨ ¬ cond) → post t (.error e) := by
    intro t e hst cond hfit hend
    exact herror t e hst (hend.imp id (fun hn ⟨built, h⟩ => hn (hfit built h)))
  refine (findRelease_reads rfl hopen.one).works.before hguard
    (fun t e hst => hunfit t e hst True (fun _ _ => trivial)) ?_
  rintro t release - - ⟨rfl, rfl⟩
  dsimp only
  by_cases hstrict : arguments.strict = true
  · rw [if_pos ⟨hstrict, hall⟩]
    refine hunfit t _ (.refl t) (arguments.strict = false) (fun _ h => h.lax) (.inr ?_)
    simp [hstrict]
  rw [if_neg (fun h => hstrict h.1), hnone]
  have hlax : arguments.strict = false := by simpa using hstrict
  refine (requireMainBranch_reads arguments.trial).works.before hguard
    (fun u e hu => hunfit u e hu _ (fun _ h => h.releasable)) ?_
  rintro u _ - hreleasable ⟨rfl, -⟩
  rw [hown]
  refine (writeOutcome_reads "ready").works.before hguard
    (fun u e hu => hunfit u e hu True (fun _ _ => trivial)) ?_
  rintro v _ - - ⟨rfl, -⟩
  refine (candidateZip_works arguments).before hguard
    (fun u e hu => hunfit u e hu _ (fun built h => ⟨built, h.fresh, h.handed⟩)) ?_
  rintro w ⟨zip, digest⟩ hvw - ⟨built, hbuilt, hhanded, hdigest, hfile⟩
  obtain rfl : digest = lib.sha256 built := hdigest
  have hready : Ready lib (lib.sha256 built) w.files zip := by
    obtain ⟨content, hcontent, hsame⟩ := hhanded.digest
    exact ⟨content, hfile.trans hcontent, hsame⟩
  have hguard' : ∀ x op, Alike w x → guard x op := fun x op hwx => hguard x op (hvw.trans hwx)
  -- what comes after the attestation, whether it is asked for or not
  have hrest : (arguments.requireAttestation = true →
      Verified attest candidate (handedOver arguments v.files built) (lib.sha256 built)) →
      (do
        let body ← raised (buildBody git candidate arguments.releaseNote (lib.sha256 built))
        let latest ← shouldBeLatest lib gh candidate
        if arguments.planOnly then
          let _ ← ensureTag gh candidate
        else
          publish lib gh candidate arguments ((v.hub.named candidate.tag).head?.map Release.answer) body latest
            zip (lib.sha256 built) : Script Unit).Ensures (attended candidate.repo attest cut) guard post w := by
    intro hverified
    refine reads_raised.works.before hguard' (fun x e hwx => hunfit x e (hvw.trans hwx) _ ?_) ?_
    · intro built' hfit
      obtain rfl : built = built' := Except.ok.inj (hbuilt.symm.trans hfit.fresh)
      exact hfit.body
    rintro x body - hbody ⟨rfl, -⟩
    refine (shouldBeLatest_reads laws hversion).works.before hguard'
      (fun y e hxy => hunfit y e (hvw.trans hxy) True (fun _ _ => trivial)) ?_
    rintro y latest - - ⟨rfl, -⟩
    by_cases hplanned : arguments.planOnly = true
    · rw [if_pos hplanned]
      exact hplan y hvw hplanned
    · rw [if_neg hplanned]
      have hfit : Fit lib git candidate attest arguments v built :=
        ⟨hlax, by simpa using hplanned, hreleasable, hbuilt, hhanded, hverified, hbody⟩
      exact hgo y built zip body latest hvw hfit hready
  by_cases hattested : arguments.requireAttestation = true
  · rw [if_pos hattested]
    refine (verifyAttestation_reads zip (lib.sha256 built)).works.before hguard'
      (fun x e hwx => hunfit x e (hvw.trans hwx) _ ?_) ?_
    · intro built' hfit
      obtain rfl : built = built' := Except.ok.inj (hbuilt.symm.trans hfit.fresh)
      have hverified := hfit.attested hattested
      rw [← hfile] at hverified
      exact hverified
    · rintro x _ - hverified ⟨rfl, -⟩
      rw [hfile] at hverified
      exact hrest (fun _ => hverified)
  · rw [if_neg hattested]
    exact hrest (fun h => absurd h hattested)

/-! One run, from wherever the last one stopped. -/

theorem run_goes (laws : DecimalLaws lib) (hversion : isVersion lib candidate.version = true)
    (hw : gh.dryRun = false) (hs : Resumable lib candidate (lib.sha256 built) start s)
    (hfit : Fit lib git candidate attest arguments s built) :
    Goes lib candidate (lib.sha256 built) start attest cut (run lib git gh candidate arguments)
      (fun t _ => Resumable lib candidate (lib.sha256 built) start t ∧ Out lib candidate (lib.sha256 built) t) s := by
  have hgo : Open candidate s → Goes lib candidate (lib.sha256 built) start attest cut
      (run lib git gh candidate arguments)
      (fun t _ => Resumable lib candidate (lib.sha256 built) start t ∧ Out lib candidate (lib.sha256 built) t) s := by
    intro hopen
    refine run_to_publish laws hversion hopen (fun t op hst => hs.alike hst) ?_ ?_ ?_
    · rintro t e hst (hcut | hunfit)
      · exact ⟨hcut, hs.alike hst⟩
      · exact absurd ⟨built, hfit⟩ hunfit
    · intro t hst hplanned
      rw [hfit.whole] at hplanned
      cases hplanned
    · intro t built' zip body latest hst hfit' hready
      obtain rfl : built = built' := Except.ok.inj (hfit.fresh.symm.trans hfit'.fresh)
      have hdraft : ∀ r ∈ t.hub.named candidate.tag, r.draft = true := by
        rw [hst.hub]
        exact fun r hr => (hopen.drafts r hr).1
      rw [← hst.hub]
      exact publish_goes hw (hs.alike hst) hdraft hready arguments body latest
  have hheld : ∀ {r : Release} {stock : List Asset}, Holds candidate s r true stock → Open candidate s := by
    intro r stock held
    refine ⟨by rw [held.only]; exact Nat.le_refl 1, fun r' hr' => ?_⟩
    rw [held.only] at hr'
    obtain rfl := List.mem_singleton.mp hr'
    exact ⟨held.draft, held.target⟩
  cases hs.stage with
  | bare tag none uploads =>
    refine hgo ⟨by rw [none]; exact Nat.zero_le 1, fun r hr => ?_⟩
    rw [none] at hr
    cases hr
  | drafted r held => exact hgo (hheld held)
  | stocked r zip held hzip => exact hgo (hheld held)
  | out r zip held hzip =>
    obtain ⟨numbers, hnumbers⟩ := versionNumbers_ok laws hversion
    refine (goes_of_works hs (run_out_works hnumbers hfit.fresh held hzip hfit.lax) trivial).mono ?_
    rintro t (e | _) hout
    · exact hout
    · exact ⟨hs.alike hout.1, r, zip, held.alike hout.1, hzip⟩

/-! A run that publishes fits. -/

theorem api_carried (method : Method) (endpoint : Endpoint) (payload : Payload) :
    (gh.api method candidate.repo endpoint payload false).Ensures (attended candidate.repo attest cut)
      (fun _ _ => True) (fun t _ => t = s ∨ ∃ answer, Carried s method endpoint payload answer t) s := by
  unfold Gh.api
  split
  · exact .inl rfl
  · refine ⟨trivial, fun reply t h => ?_⟩
    have heffect : t = s ∨ ∃ answer, Carried s method endpoint payload answer t := by
      rcases h rfl with ⟨answer, -, hcarried⟩ | ⟨rfl, -, -⟩ | ⟨-, -, heffect⟩
      · exact .inr ⟨answer, hcarried⟩
      · exact .inl rfl
      · exact heffect.imp id And.right
    rcases reply with (message | _) | answer
    · exact heffect
    · exact heffect
    · exact heffect

theorem ensureTag_named :
    (ensureTag gh candidate).Ensures (attended candidate.repo attest cut) (fun _ _ => True)
      (fun t _ => t.hub.named candidate.tag = s.hub.named candidate.tag) s := by
  refine Ensures.bind (Ensures.weaken reads_tagSha (fun _ _ _ => trivial)) ?_ ?_
  · rintro t existing ⟨rfl, -⟩
    have hcreate : (gh.api .post candidate.repo .refs (.ref ("refs/tags/" ++ candidate.tag) candidate.sha)
        false).Ensures (attended candidate.repo attest cut) (fun _ _ => True)
        (fun u _ => u.hub.named candidate.tag = t.hub.named candidate.tag) t := by
      refine (api_carried _ _ _).mono ?_
      rintro u out (rfl | ⟨object, hcarried⟩)
      · rfl
      · exact (tagged_of_createRef hcarried).2.2.1
    split
    · exact rfl
    · split
      · exact rfl
      · split
        · exact rfl
        · exact hcreate.bind (fun _ _ hu => hu) (fun _ _ hu => hu)
  · rintro t e ⟨rfl, -⟩
    exact rfl

theorem fit_of_published (laws : DecimalLaws lib) (hversion : isVersion lib candidate.version = true)
    (hnone : s.hub.named candidate.tag = []) :
    (run lib git gh candidate arguments).Ensures (attended candidate.repo attest cut) (fun _ _ => True)
      (fun t out => out = .ok () → (∃ r ∈ t.hub.named candidate.tag, r.draft = false) →
        gh.dryRun = false ∧ ∃ built, Fit lib git candidate attest arguments s built) s := by
  have hopen : Open candidate s := by
    refine ⟨by rw [hnone]; exact Nat.zero_le 1, fun r hr => ?_⟩
    rw [hnone] at hr
    cases hr
  refine run_to_publish laws hversion hopen (fun _ _ _ => trivial) (fun t e _ _ hok => nomatch hok) ?_ ?_
  · intro t hst _
    refine ensureTag_named.bind ?_ ?_
    · rintro u _ hnamed - ⟨r, hr, -⟩
      rw [hnamed, hst.hub, hnone] at hr
      cases hr
    · rintro u e - hok
      cases hok
  · intro t built zip body latest hst hfit _
    cases hdry : gh.dryRun with
    | false => exact Ensures.of_forall (fun _ _ => trivial) (fun _ _ _ _ => ⟨rfl, built, hfit⟩) _ t
    | true =>
      rw [hnone]
      unfold publish
      refine (ensureTag_named (s := t)).bind ?_ (fun u e _ hok => nomatch hok)
      intro u _ _
      unfold ensureDraft
      dsimp only [List.head?_nil, Option.map_none]
      rw [if_pos hdry]
      exact fun hok => nomatch hok

end

section

variable (lib : Libraries) (git : Git) (gh : Gh) (candidate : Candidate) (attest : Attest) (arguments : Arguments)

/-- Where any number of runs may have left things, each of them stopped anywhere. -/
inductive Interrupted (start : Flow) : Flow → Prop
  | fresh : Interrupted start start
  | run {s t : Flow} {files : String → Option Bytes} {rest : Script Unit} (h : Interrupted start s)
      (hzip : SameZip arguments start.files files)
      (hsteps : Steps (attended candidate.repo attest True) { s with files := files }
        (run lib git gh candidate arguments) t rest) : Interrupted start t

end

section

variable {lib : Libraries} {git : Git} {gh : Gh} {candidate : Candidate} {attest : Attest}
variable {arguments : Arguments} {start s : Flow} {built : Bytes}

theorem Resumable.refiled {digest : String} (h : Resumable lib candidate digest start s)
    (files : String → Option Bytes) : Resumable lib candidate digest start { s with files := files } :=
  h.alike ⟨rfl, rfl⟩

theorem Interrupted.resumable (laws : DecimalLaws lib) (hversion : isVersion lib candidate.version = true)
    (hw : gh.dryRun = false) (hfit : Fit lib git candidate attest arguments start built)
    (hstart : Resumable lib candidate (lib.sha256 built) start start)
    (h : Interrupted lib git gh candidate attest arguments start s) :
    Resumable lib candidate (lib.sha256 built) start s := by
  induction h with
  | fresh => exact hstart
  | @run s t files rest h hzip hsteps ih =>
    have hrest := (run_goes laws hversion hw (ih.refiled files) (hfit.again ih.same hzip)).of_steps hsteps
    cases rest with
    | done _ => exact hrest.1
    | fail e => exact hrest.2
    | call op next => exact hrest.1

/-- Where a run from scratch that is left alone would publish, the next run after
any number of interrupted ones ends well, with the release out: its tag on the
candidate, and its only asset the ZIP of the candidate's build, uploaded once. -/
theorem interrupted_release_resumes (lib : Libraries) (git : Git) (gh : Gh) (candidate : Candidate)
    (attest : Attest) (arguments : Arguments) (laws : DecimalLaws lib)
    (hversion : isVersion lib candidate.version = true) (start s : Flow) (huntagged : Untagged candidate start)
    (hnone : start.hub.named candidate.tag = []) (huploads : start.uploads = 0)
    (hpublishes : ∃ t, Steps (attended candidate.repo attest False) start (run lib git gh candidate arguments) t
      (.done ()) ∧ ∃ r ∈ t.hub.named candidate.tag, r.draft = false)
    (h : Interrupted lib git gh candidate attest arguments start s) (files : String → Option Bytes)
    (hzip : SameZip arguments start.files files) :
    ∃ built, build lib git candidate.sha = .ok built ∧
      (run lib git gh candidate arguments).Ensures (attended candidate.repo attest False) (fun _ _ => True)
        (fun t out => out = .ok () ∧ Out lib candidate (lib.sha256 built) t) { s with files := files } := by
  obtain ⟨t, hsteps, hout⟩ := hpublishes
  obtain ⟨hw, built, hfit⟩ := (fit_of_published laws hversion hnone).of_steps hsteps rfl hout
  have hhistory : start.hub.SameHistory start.hub := ⟨rfl, rfl, rfl, rfl⟩
  have hstart : Resumable lib candidate (lib.sha256 built) start start :=
    ⟨hhistory, .bare (.inl huntagged) hnone huploads⟩
  have hs : Resumable lib candidate (lib.sha256 built) start s := h.resumable laws hversion hw hfit hstart
  have hrun : Goes lib candidate (lib.sha256 built) start attest False (run lib git gh candidate arguments) _
      { s with files := files } := run_goes laws hversion hw (hs.refiled files) (hfit.again hs.same hzip)
  refine ⟨built, hfit.fresh, (hrun.weaken (fun _ _ _ => trivial)).mono ?_⟩
  rintro u (e | _) hend
  · exact absurd hend.1 id
  · exact ⟨rfl, hend.2⟩

end

/-! A first run of the rehearsal. -/

namespace Rehearsal

def freshHub : GitHub :=
  { hub with
    refs := fun _ => none
    releases := []
    releaseIds := List.nodup_nil
    assetIds := List.nodup_nil }

def freshFlow : Flow := ⟨freshHub, fun _ => none, 0⟩

theorem decimalLaws : DecimalLaws lib where
  spaces c h := by
    have hdigit : c.isDigit = true := by
      by_contra hnot
      simp [lib, hnot] at h
    by_contra hspace
    simp only [Char.isWhitespace, Bool.or_eq_true, decide_eq_true_eq, Bool.not_eq_false] at hspace
    rcases hspace with ((rfl | rfl) | rfl) | rfl
    all_goals exact absurd hdigit (by decide)
  signs c h := by
    have hsign : c.isDigit = false := by
      simp only [List.mem_cons, List.not_mem_nil, or_false] at h
      rcases h with rfl | rfl | rfl | rfl
      all_goals rfl
    simp [lib, hsign]

theorem isVersion_candidate : isVersion lib candidate.version = true := by decide +kernel

theorem fit_fresh : Fit lib git candidate attest arguments freshFlow manifest where
  lax := rfl
  whole := rfl
  releasable := .inr ⟨rfl, .inr (by decide +kernel)⟩
  fresh := by decide +kernel
  handed _ h := nomatch h
  attested _ := ⟨_, rfl, by decide⟩
  body := ⟨_, rfl⟩

theorem resumable_fresh : Resumable lib candidate (lib.sha256 manifest) freshFlow freshFlow :=
  ⟨⟨rfl, rfl, rfl, rfl⟩, .bare (.inl rfl) rfl rfl⟩

theorem publishes_fresh : ∃ t, Steps (attended candidate.repo attest False) freshFlow
    (run lib git gh candidate arguments) t (.done ()) ∧ ∃ r ∈ t.hub.named candidate.tag, r.draft = false := by
  have hrun : Goes lib candidate (lib.sha256 manifest) freshFlow attest False (run lib git gh candidate arguments) _
      freshFlow := run_goes decimalLaws isVersion_candidate rfl resumable_fresh fit_fresh
  obtain ⟨t, out, hsteps, hend⟩ := hrun.exists_ended (attended_answers _ _ _)
  cases out with
  | error e => exact absurd hend.1 id
  | ok u =>
    obtain ⟨-, r, zip, held, -⟩ := hend
    exact ⟨t, hsteps, r, by rw [held.only]; exact List.mem_singleton_self r, held.draft⟩

/-! A run that is cut off: the answer that tells of its draft is lost. -/

section

variable {repo : String} {s : Flow} {payload : Payload}

theorem attended_found {endpoint : Endpoint} {given : Option (Answer .get endpoint)}
    (hsome : ∀ answer, given = some answer → s.hub.Serves s.files .get endpoint payload answer s.hub)
    (hnone : given = none → ∀ answer, ¬ s.hub.Serves s.files .get endpoint payload answer s.hub) :
    attended repo attest True s (.api .get repo endpoint payload) (found given) s := by
  intro _
  cases given with
  | some answer => exact .inl ⟨answer, rfl, carried_get (hsome answer rfl)⟩
  | none =>
    have hmessage : isNotFound "gh: Not Found (HTTP 404)" = true := by decide
    refine .inr (.inl ⟨rfl, fun answer u hcarried => ?_, _, rfl, fun _ => hmessage⟩)
    exact hnone rfl answer hcarried.get.2

theorem attended_served (endpoint : Endpoint) :
    attended repo attest True s (.api .get repo endpoint payload) (served s.hub .get endpoint) s := by
  have hunavailable : isNotFound "gh: Service Unavailable (HTTP 503)" = false := by decide
  have hlost : ∀ {other : Endpoint}, attended repo attest True s (.api .get repo other payload)
      (.error (.exit "gh: Service Unavailable (HTTP 503)")) s :=
    fun _ => .inr (.inr ⟨trivial, ⟨_, rfl, fun message hm => by cases hm; exact hunavailable⟩, .inl rfl⟩)
  cases endpoint with
  | repository => exact fun _ => .inl ⟨_, rfl, carried_get ⟨rfl, rfl⟩⟩
  | comparison base head =>
    exact attended_found (fun answer ha => ⟨ha, rfl⟩) (fun hn answer ha => by cases hn.symm.trans ha.1)
  | ref name =>
    exact attended_found (fun answer ha => ⟨ha, rfl⟩) (fun hn answer ha => by cases hn.symm.trans ha.1)
  | tagObject sha =>
    exact attended_found (fun answer ha => ⟨ha, rfl⟩) (fun hn answer ha => by cases hn.symm.trans ha.1)
  | releases => exact fun _ => .inl ⟨_, rfl, carried_get ⟨⟨_, .refl _, rfl⟩, rfl⟩⟩
  | latest =>
    refine attended_found (fun answer ha => ?_) (fun hn answer ha => ?_)
    · obtain ⟨r, hr, rfl⟩ := Option.map_eq_some_iff.mp ha
      have hdraft : (!r.draft) = true := List.find?_some (p := fun r : Release => !r.draft) hr
      exact ⟨⟨r, List.mem_of_find?_eq_some hr, by simpa using hdraft, rfl⟩, rfl⟩
    · obtain ⟨⟨r, hr, hdraft, -⟩, -⟩ := ha
      have hnot := List.find?_eq_none.mp (Option.map_eq_none_iff.mp hn) r hr
      simp [hdraft] at hnot
  | _ => exact hlost

end

def tagging (s : Flow) (name sha : String) : Flow :=
  { s with hub := { s.hub with refs := Function.update s.hub.refs name (some ⟨"commit", sha⟩) } }

def firstDraft (s : Flow) (tag : String) (fields : ReleaseFields) : Release :=
  ⟨1, tag, fields.targetCommitish.getD s.hub.defaultBranch, fields.body, true, [], List.nodup_nil⟩

def drafting (s : Flow) (tag : String) (fields : ReleaseFields) : Flow :=
  { s with hub := { s.hub with
      releases := [firstDraft s tag fields]
      releaseIds := List.nodup_singleton _
      assetIds := List.nodup_nil } }

/-- GitHub answers what is read, tells of a new tag, and makes a draft without
telling. -/
def losing (s : Flow) : (op : Op) → Reply op × Flow
  | .api .get _ endpoint _ => (served s.hub .get endpoint, s)
  | .api .post _ .refs (.ref name sha) =>
    if s.hub.refs name = none then (.ok (some ⟨"commit", sha⟩), tagging s name sha) else (.error .unreadable, s)
  | .api .post _ .releases (.release fields) =>
    match fields.tagName with
    | some tag =>
      (.error .unreadable, if s.hub.releases = [] ∧ fields.draft = some true then drafting s tag fields else s)
    | none => (.error .unreadable, s)
  | .api _ _ _ _ => (.error .unreadable, s)
  | .raw _ _ => (.error "", s)
  | .attestation zip of source signer => ((attest (s.files zip) of source signer).mapError .exit, s)
  | .readFile file => ((s.files file).elim (.error "FileNotFoundError") .ok, s)
  | .writeFile file content => (.ok (), { s with files := Function.update s.files file (some content) })
  | .writeOutcome _ _ => (.ok (), s)

theorem attended_losing (repo : String) (s : Flow) (op : Op) :
    attended repo attest True s op (losing s op).1 (losing s op).2 := by
  have hunreadable : ∀ message, Fault.unreadable = .exit message → isNotFound message = false :=
    fun message hm => by cases hm
  have hlost : ∀ {method : Method} {endpoint : Endpoint} {payload : Payload},
      attended repo attest True s (.api method repo endpoint payload) (.error .unreadable) s :=
    fun _ => .inr (.inr ⟨trivial, ⟨_, rfl, hunreadable⟩, .inl rfl⟩)
  cases op with
  | api method of endpoint payload =>
    rintro rfl
    cases method with
    | get => exact attended_served endpoint rfl
    | post =>
      cases endpoint with
      | refs =>
        cases payload with
        | ref name sha =>
          by_cases hnone : s.hub.refs name = none
          · simp only [losing, if_pos hnone]
            exact .inl ⟨_, rfl, ⟨⟨⟨rfl, rfl, rfl, rfl⟩, hnone, rfl, rfl⟩, rfl⟩, rfl, rfl, rfl⟩
          · simp only [losing, if_neg hnone]
            exact hlost rfl
        | _ => exact hlost rfl
      | releases =>
        cases payload with
        | release fields =>
          simp only [losing]
          cases htag : fields.tagName with
          | none => exact hlost rfl
          | some tag =>
            by_cases hdraft : s.hub.releases = [] ∧ fields.draft = some true
            · simp only [if_pos hdraft]
              have hcreated : s.hub.CreatesRelease fields (firstDraft s tag fields) (drafting s tag fields).hub :=
                ⟨⟨rfl, rfl, rfl, rfl⟩, htag, rfl, rfl, by rw [hdraft.2]; rfl, rfl, fun _ _ h => h, fun _ => rfl,
                  by rw [hdraft.1]; rfl⟩
              have hcarried : Carried s .post .releases (.release fields) _ (drafting s tag fields) :=
                ⟨⟨_, hcreated, rfl⟩, trivial, rfl, rfl⟩
              exact .inr (.inr ⟨trivial, ⟨_, rfl, hunreadable⟩, .inr ⟨by decide, _, hcarried⟩⟩)
            · simp only [if_neg hdraft]
              exact hlost rfl
        | _ => exact hlost rfl
      | _ => exact hlost rfl
    | _ => exact hlost rfl
  | raw of id => exact ⟨rfl, fun _ => .inr ⟨⟨_, rfl⟩, .inl trivial⟩⟩
  | attestation zip of source signer => exact ⟨rfl, .inl rfl⟩
  | readFile file => exact ⟨rfl, rfl⟩
  | writeFile file content => exact ⟨rfl, rfl⟩
  | writeOutcome outcome candidate => exact ⟨rfl, rfl⟩

/-- A first run that makes the tag and the draft and never hears of the draft. -/
def cutOff : Script Unit × Flow := (run lib git gh candidate arguments).advance losing 40 freshFlow

theorem cutOff_draft : (cutOff.2.hub.named candidate.tag).map (fun r => (r.draft, r.targetCommitish, r.assets)) =
    [(true, candidate.sha, [])] := by decide +kernel

end Rehearsal

/-- The draft is there and its answer was lost; the next run ends well. -/
theorem interrupted_release_resumes_rehearsal :
    ∃ s, Interrupted Rehearsal.lib Rehearsal.git Rehearsal.gh Rehearsal.candidate Rehearsal.attest Rehearsal.arguments
        Rehearsal.freshFlow s ∧
      ((s.hub.named Rehearsal.candidate.tag).map (fun r => (r.draft, r.targetCommitish, r.assets)) =
        [(true, Rehearsal.candidate.sha, [])]) ∧
      ∃ built, build Rehearsal.lib Rehearsal.git Rehearsal.candidate.sha = .ok built ∧
        (run Rehearsal.lib Rehearsal.git Rehearsal.gh Rehearsal.candidate Rehearsal.arguments).Ensures
          (attended Rehearsal.candidate.repo Rehearsal.attest False) (fun _ _ => True)
          (fun t out => out = .ok () ∧ Out Rehearsal.lib Rehearsal.candidate (Rehearsal.lib.sha256 built) t)
          { s with files := fun _ => none } := by
  have hsteps : Steps (attended Rehearsal.candidate.repo Rehearsal.attest True) Rehearsal.freshFlow
      (run Rehearsal.lib Rehearsal.git Rehearsal.gh Rehearsal.candidate Rehearsal.arguments)
      Rehearsal.cutOff.2 Rehearsal.cutOff.1 :=
    steps_advance (Rehearsal.attended_losing _) 40 _ _
  have hinterrupted : Interrupted Rehearsal.lib Rehearsal.git Rehearsal.gh Rehearsal.candidate Rehearsal.attest
      Rehearsal.arguments Rehearsal.freshFlow Rehearsal.cutOff.2 :=
    .run .fresh (fun _ h => by cases h) hsteps
  exact ⟨_, hinterrupted, Rehearsal.cutOff_draft,
    interrupted_release_resumes Rehearsal.lib Rehearsal.git Rehearsal.gh Rehearsal.candidate Rehearsal.attest
      Rehearsal.arguments Rehearsal.decimalLaws Rehearsal.isVersion_candidate Rehearsal.freshFlow Rehearsal.cutOff.2
      rfl rfl rfl Rehearsal.publishes_fresh hinterrupted (fun _ => none) (fun _ h => by cases h)⟩

end OnestiLock.ReleasePublish
