import OnestiLock.ReleaseReads

/-! When the parts of the script that leave GitHub alone get through. -/

namespace OnestiLock.ReleasePublish

open Program

/-- Only the files may have changed. -/
structure Alike (s t : Flow) : Prop where
  hub : t.hub = s.hub
  uploads : t.uploads = s.uploads

theorem Alike.refl (s : Flow) : Alike s s := ⟨rfl, rfl⟩

theorem Alike.trans {s t u : Flow} (h : Alike s t) (h' : Alike t u) : Alike s u :=
  ⟨h'.hub.trans h.hub, h'.uploads.trans h.uploads⟩

/-- It gets through if and only if the condition holds, unless a call is cut off. -/
abbrev Works {α : Type} (repo : String) (attest : Attest) (cut : Prop) (p : Script α) (cond : Prop)
    (fact : Flow → α → Prop) (s : Flow) : Prop :=
  p.Ensures (attended repo attest cut) (fun t _ => Alike s t) (fun t out => Alike s t ∧
    match out with
    | .ok a => cond ∧ fact t a
    | .error _ => cut ∨ ¬ cond) s

section

variable {repo : String} {attest : Attest} {cut : Prop} {α β : Type} {s : Flow}

theorem works_done {cond : Prop} {fact : Flow → α → Prop} {a : α} (hc : cond) (hf : fact s a) :
    Works repo attest cut (.done a) cond fact s :=
  ⟨.refl s, hc, hf⟩

theorem works_fail {cond : Prop} {fact : Flow → α → Prop} {e : Halt} (hc : ¬ cond) :
    Works repo attest cut (.fail e : Script α) cond fact s :=
  ⟨.refl s, .inr hc⟩

theorem Reads.works {p : Script α} {cond : Prop} {fact : α → Prop} (h : Reads repo attest cut p cond fact s) :
    Works repo attest cut p cond (fun t a => t = s ∧ fact a) s := by
  refine (Ensures.weaken h (fun t op ht => ht ▸ Alike.refl s)).mono ?_
  rintro t (e | a) ⟨rfl, hout⟩
  · exact ⟨.refl t, hout⟩
  · exact ⟨.refl t, hout.1, rfl, hout.2⟩

theorem Works.bind {p : Script α} {f : α → Script β} {first cond : Prop} {fact : Flow → α → Prop}
    {final : Flow → β → Prop} (h : Works repo attest cut p first fact s) (hfirst : cond → first)
    (hf : ∀ t a, Alike s t → first → fact t a → Works repo attest cut (f a) cond final t) :
    Works repo attest cut (p >>= f) cond final s := by
  refine Ensures.bind h ?_ ?_
  · rintro t a ⟨hst, hc, ha⟩
    refine (Ensures.weaken (hf t a hst hc ha) (fun u op hu => hst.trans hu)).mono ?_
    rintro u out ⟨htu, hout⟩
    exact ⟨hst.trans htu, hout⟩
  · rintro t e ⟨hst, he⟩
    exact ⟨hst, he.imp id (fun hn hc => hn (hfirst hc))⟩

theorem Works.mono {p : Script α} {first cond : Prop} {fact final : Flow → α → Prop}
    (h : Works repo attest cut p first fact s) (hc : cond ↔ first)
    (hf : ∀ t a, Alike s t → fact t a → final t a) : Works repo attest cut p cond final s := by
  refine Ensures.mono h ?_
  rintro t (e | a) ⟨hst, hout⟩
  · exact ⟨hst, hout.imp id (fun hn hh => hn (hc.mp hh))⟩
  · exact ⟨hst, hc.mpr hout.1, hf t a hst hout.2⟩

theorem readFile_reads (file : String) :
    Reads repo attest cut (readFile file) (∃ content, s.files file = some content)
      (fun content => s.files file = some content) s := by
  refine ⟨rfl, fun reply t h => ?_⟩
  obtain ⟨rfl, rfl⟩ := h
  cases hfile : t.files file with
  | some content => exact reads_done ⟨content, rfl⟩ rfl
  | none =>
    refine reads_fail ?_
    rintro ⟨content, ⟨⟩⟩

theorem writeFile_works (file : String) (content : Bytes) :
    Works repo attest cut (writeFile file content) True
      (fun t _ => t.files = Function.update s.files file (some content)) s := by
  refine ⟨.refl s, fun reply t h => ?_⟩
  obtain ⟨rfl, rfl⟩ := h
  exact ⟨⟨rfl, rfl⟩, trivial, rfl⟩

variable {lib : Libraries} {git : Git} {candidate : Candidate}

theorem sha256Of_reads (file : String) :
    Reads repo attest cut (sha256Of lib file) (∃ content, s.files file = some content)
      (fun digest => ∃ content, s.files file = some content ∧ digest = lib.sha256 content) s := by
  refine (readFile_reads file).bind id (fun content hc hcontent => ?_)
  exact reads_done hc ⟨content, hcontent, rfl⟩

theorem digest_works (file : String) (content : Bytes) :
    Works repo attest cut (writeFile file content >>= fun _ => sha256Of lib file) True (fun t digest =>
      digest = lib.sha256 content ∧ t.files = Function.update s.files file (some content)) s := by
  refine (writeFile_works file content).bind id (fun t _ _ _ hfiles => ?_)
  have hfile : t.files file = some content := by rw [hfiles, Function.update_self]
  refine (sha256Of_reads file).works.mono ⟨fun _ => ⟨content, hfile⟩, fun _ => trivial⟩ ?_
  rintro u digest - ⟨rfl, content', hcontent', rfl⟩
  obtain rfl : content = content' := Option.some.inj (hfile.symm.trans hcontent')
  exact ⟨rfl, hfiles⟩

theorem buildZip_works (sha target : String) :
    Works repo attest cut (buildZip lib git sha target) (∃ built, build lib git sha = .ok built) (fun t digest =>
      ∃ built, build lib git sha = .ok built ∧ digest = lib.sha256 built ∧
        t.files = Function.update s.files target (some built)) s := by
  have hbuild : Works repo attest cut (raised (build lib git sha)) (∃ built, build lib git sha = .ok built)
      (fun t built => t = s ∧ build lib git sha = .ok built) s := reads_raised.works
  refine hbuild.bind id ?_
  rintro t built - hc ⟨rfl, hbuilt⟩
  refine (digest_works target built).mono ⟨fun _ => trivial, fun _ => hc⟩ ?_
  rintro u digest - ⟨rfl, hfiles⟩
  exact ⟨built, hbuilt, rfl, hfiles⟩

theorem downloadAsset_works {r : Release} {zip : Asset} (hr : r ∈ s.hub.releases) (hzip : zip ∈ r.assets)
    (target : String) :
    Works candidate.repo attest cut (downloadAsset lib candidate zip.answer target) True
      (fun t digest => digest = lib.sha256 zip.content ∧ t.files = Function.update s.files target (some zip.content))
      s := by
  have hraw : Works candidate.repo attest cut (raw candidate.repo zip.answer.id) True
      (fun t content => t = s ∧ content = zip.content) s := by
    refine ⟨.refl s, fun reply t h => ?_⟩
    obtain ⟨rfl, hreply⟩ := h
    rcases hreply rfl with ⟨other, hother, asset, hasset, hid, rfl⟩ | ⟨⟨message, rfl⟩, hcut | hnone⟩
    · obtain rfl : asset = zip := GitHub.asset_eq hother hr hasset hzip hid
      exact works_done trivial ⟨rfl, rfl⟩
    · exact ⟨.refl t, .inl hcut⟩
    · exact absurd rfl (hnone r hr zip hzip)
  refine hraw.bind id ?_
  rintro t content - - ⟨rfl, rfl⟩
  exact digest_works target zip.content

/-- The bytes in the ZIP that is uploaded, when it is read for that. -/
def handedOver (arguments : Arguments) (files : String → Option Bytes) (built : Bytes) : Option Bytes :=
  match arguments.zipPath with
  | none => some built
  | some zip => if zip = join arguments.workdir "control.zip" then some built else files zip

/-- A ZIP that was handed over has the digest of the build. -/
def Handed (lib : Libraries) (arguments : Arguments) (files : String → Option Bytes) (built : Bytes) : Prop :=
  ∀ zip ∈ arguments.zipPath, ∃ content, files zip = some content ∧ lib.sha256 content = lib.sha256 built

theorem Handed.digest {arguments : Arguments} {files : String → Option Bytes} {built : Bytes}
    (h : Handed lib arguments files built) :
    ∃ content, handedOver arguments files built = some content ∧ lib.sha256 content = lib.sha256 built := by
  unfold handedOver
  split
  · exact ⟨built, rfl, rfl⟩
  · rename_i zip hzip
    split
    · exact ⟨built, rfl, rfl⟩
    · exact h zip hzip

theorem candidateZip_works (arguments : Arguments) :
    Works repo attest cut (candidateZip lib git candidate arguments)
      (∃ built, build lib git candidate.sha = .ok built ∧ Handed lib arguments s.files built)
      (fun t zip => ∃ built, build lib git candidate.sha = .ok built ∧ Handed lib arguments s.files built ∧
        zip.2 = lib.sha256 built ∧ t.files zip.1 = handedOver arguments s.files built) s := by
  have hcond : ∀ built, build lib git candidate.sha = .ok built →
      ((∃ built, build lib git candidate.sha = .ok built ∧ Handed lib arguments s.files built) ↔
        Handed lib arguments s.files built) := by
    intro built hbuilt
    constructor
    · rintro ⟨other, hother, hhanded⟩
      obtain rfl : built = other := Except.ok.inj (hbuilt.symm.trans hother)
      exact hhanded
    · exact fun hhanded => ⟨built, hbuilt, hhanded⟩
  unfold candidateZip
  split
  · rename_i hzip
    have hhanded : ∀ built, Handed lib arguments s.files built := by
      intro built zip hmem
      rw [hzip] at hmem
      cases hmem
    refine (buildZip_works candidate.sha _).bind (fun ⟨built, hbuilt, _⟩ => ⟨built, hbuilt⟩) ?_
    rintro t digest - - ⟨built, hbuilt, rfl, hfiles⟩
    refine works_done ⟨built, hbuilt, hhanded built⟩ ⟨built, hbuilt, hhanded built, rfl, ?_⟩
    rw [hfiles, Function.update_self, handedOver, hzip]
  · rename_i zip hzip
    refine (sha256Of_reads zip).works.bind ?_ ?_
    · rintro ⟨built, -, hhanded⟩
      obtain ⟨content, hcontent, -⟩ := hhanded zip hzip
      exact ⟨content, hcontent⟩
    · rintro t digest - - ⟨rfl, content, hcontent, rfl⟩
      refine (buildZip_works candidate.sha _).bind (fun ⟨built, hbuilt, _⟩ => ⟨built, hbuilt⟩) ?_
      rintro u expected - - ⟨built, hbuilt, rfl, hfiles⟩
      have hhanded : Handed lib arguments t.files built ↔ lib.sha256 content = lib.sha256 built := by
        constructor
        · intro h
          obtain ⟨content', hcontent', hdigest⟩ := h zip hzip
          obtain rfl : content = content' := Option.some.inj (hcontent.symm.trans hcontent')
          exact hdigest
        · intro hdigest zip' hzip'
          obtain rfl : zip = zip' := Option.some.inj (hzip.symm.trans hzip')
          exact ⟨content, hcontent, hdigest⟩
      split
      · rename_i hne
        exact works_fail (fun hc => hne (hhanded.mp ((hcond built hbuilt).mp hc)))
      · rename_i heq
        have hdigest : lib.sha256 content = lib.sha256 built := not_not.mp heq
        refine works_done ((hcond built hbuilt).mpr (hhanded.mpr hdigest))
          ⟨built, hbuilt, hhanded.mpr hdigest, hdigest, ?_⟩
        show u.files zip = handedOver arguments t.files built
        have hover : handedOver arguments t.files built =
            if zip = join arguments.workdir "control.zip" then some built else t.files zip := by
          rw [handedOver, hzip]
        rw [hfiles, hover]
        by_cases hcontrol : zip = join arguments.workdir "control.zip"
        · rw [if_pos hcontrol, hcontrol, Function.update_self]
        · rw [if_neg hcontrol, Function.update_of_ne hcontrol]

end

end OnestiLock.ReleasePublish
