import OnestiLock.ReleaseRuns
import OnestiLock.ReleaseWork

/-! A version that is out already: what a run proves of it before it passes it
over, and when it stops. -/

namespace OnestiLock

/-- The tag is on a commit, or it is an annotated one, which names what it is on. -/
def GitHub.Names (s : GitHub) (tag sha : String) : Prop :=
  ∃ object, s.refs ("refs/tags/" ++ tag) = some object ∧
    (object.type = "commit" ∧ object.sha = sha ∨
      object.type = "tag" ∧ ∃ target, s.tagObjects object.sha = some target ∧ target.sha = sha)

theorem GitHub.Names.unique {s : GitHub} {tag sha other : String} (h : s.Names tag sha) (h' : s.Names tag other) :
    sha = other := by
  obtain ⟨object, href, hobject⟩ := h
  obtain ⟨object', href', hobject'⟩ := h'
  obtain rfl : object = object' := Option.some.inj (href.symm.trans href')
  rcases hobject with ⟨htype, rfl⟩ | ⟨htype, target, htarget, rfl⟩
  · rcases hobject' with ⟨-, rfl⟩ | ⟨htype', -⟩
    · rfl
    · exact absurd (htype.symm.trans htype') (by decide)
  · rcases hobject' with ⟨htype', -⟩ | ⟨-, target', htarget', rfl⟩
    · exact absurd (htype'.symm.trans htype) (by decide)
    · obtain rfl : target = target' := Option.some.inj (htarget.symm.trans htarget')
      rfl

namespace ReleasePublish

open Program

section

variable (lib : Libraries) (git : Git) (candidate : Candidate) (attest : Attest)

/-- The files in a ZIP, name to content. -/
def filesOf (zip : Bytes) : Except String (List (String × Bytes)) := (lib.unpack zip).map lastOfName

/-- The ZIPs hold the same files. -/
def SameFiles (zip built : Bytes) : Prop :=
  zip = built ∨ ∃ files, filesOf lib zip = .ok files ∧ filesOf lib built = .ok files

/-- Different ZIPs of one digest, which no comparison of digests tells apart. -/
def Collide (zip built : Bytes) : Prop := zip ≠ built ∧ lib.sha256 zip = lib.sha256 built

/-- The release has the ZIP of a build of the commit. -/
structure Ships (release : Release) (sha : String) (zip : Asset) (built : Bytes) : Prop where
  listed : zip ∈ release.assets
  name : zip.name = assetName
  fresh : build lib git sha = .ok built
  files : SameFiles lib zip.content built ∨ Collide lib zip.content built

/-- The release is proved against its tag, and when `strict` by an attestation too. -/
def ProvedOn (strict : Bool) (hub : GitHub) (release : Release) : Prop :=
  ∃ sha zip built, hub.Names candidate.tag sha ∧ Ships lib git release sha zip built ∧
    (strict = true →
      Verified attest { candidate with sha := sha } (some zip.content) (lib.sha256 zip.content))

end

section

variable {lib : Libraries} {git : Git} {gh : Gh} {candidate : Candidate} {attest : Attest} {cut : Prop}
variable {s : Flow} {release : Release}

theorem sameFiles_or_collide_iff {zip built : Bytes} :
    SameFiles lib zip built ∨ Collide lib zip built ↔ lib.sha256 zip = lib.sha256 built ∨
      ∃ files, filesOf lib zip = .ok files ∧ filesOf lib built = .ok files := by
  constructor
  · rintro ((rfl | hfiles) | hcollide)
    · exact .inl rfl
    · exact .inr hfiles
    · exact .inl hcollide.2
  · rintro (hdigest | hfiles)
    · by_cases heq : zip = built
      · exact .inl (.inl heq)
      · exact .inr ⟨heq, hdigest⟩
    · exact .inl (.inr hfiles)

theorem asset_unique {zip other : Asset} (hzip : zip ∈ release.assets) (hother : other ∈ release.assets)
    (hname : zip.name = assetName) (hname' : other.name = assetName) : zip = other :=
  List.inj_on_of_nodup_map release.names hzip hother (hname.trans hname'.symm)

theorem zips_answer (release : Release) :
    (zips release.answer = [] ∧ ∀ zip ∈ release.assets, zip.name ≠ assetName) ∨
      ∃ zip ∈ release.assets, zip.name = assetName ∧ ∃ rest, zips release.answer = zip.answer :: rest := by
  have hzips : zips release.answer = (release.assets.filter (fun a => a.name = assetName)).map Asset.answer := by
    unfold zips Release.answer
    rw [Option.getD_some, List.filter_map]
    refine congrArg _ (List.filter_congr (fun a _ => ?_))
    simp [Asset.answer]
  rw [hzips]
  cases hfilter : release.assets.filter (fun a => a.name = assetName) with
  | nil =>
    refine .inl ⟨rfl, fun zip hzip hname => ?_⟩
    have hmem : zip ∈ release.assets.filter (fun a => a.name = assetName) :=
      List.mem_filter.mpr ⟨hzip, decide_eq_true hname⟩
    rw [hfilter] at hmem
    exact absurd hmem List.not_mem_nil
  | cons zip rest =>
    have hmem : zip ∈ release.assets.filter (fun a => a.name = assetName) := by
      rw [hfilter]
      exact List.mem_cons_self
    obtain ⟨hzip, hname⟩ := List.mem_filter.mp hmem
    exact .inr ⟨zip, hzip, of_decide_eq_true hname, _, rfl⟩

theorem reads_tagSha :
    Reads candidate.repo attest cut (tagSha gh candidate)
      (Untagged candidate s ∨ ∃ sha, s.hub.Names candidate.tag sha) (fun
        | none => Untagged candidate s
        | some sha => s.hub.Names candidate.tag sha) s := by
  refine Ensures.bind (reads_get (.ref ("tags/" ++ candidate.tag)) .empty true) ?_ ?_
  · rintro t (answer | object) ⟨rfl, hserved⟩
    · have huntagged : Untagged candidate t := by
        cases href : t.hub.refs ("refs/" ++ ("tags/" ++ candidate.tag)) with
        | none =>
          rw [ref_tags] at href
          exact href
        | some object => exact absurd ⟨href, rfl⟩ (hserved.2 object)
      exact reads_done (.inl huntagged) huntagged
    · have href : t.hub.refs ("refs/tags/" ++ candidate.tag) = some object := ref_tags candidate.tag ▸ hserved.1
      have htagged : ¬ Untagged candidate t := fun h => by rw [Untagged, href] at h; cases h
      dsimp only
      by_cases hcommit : object.type = "commit"
      · rw [if_pos hcommit]
        have hnames : t.hub.Names candidate.tag object.sha := ⟨object, href, .inl ⟨hcommit, rfl⟩⟩
        exact reads_done (.inr ⟨_, hnames⟩) hnames
      · rw [if_neg hcommit]
        by_cases htag : object.type = "tag"
        · rw [if_pos htag]
          have htarget : ∀ sha, t.hub.Names candidate.tag sha →
              ∃ target, t.hub.tagObjects object.sha = some target := by
            rintro sha ⟨object', href', hobject⟩
            obtain rfl : object = object' := Option.some.inj (href.symm.trans href')
            rcases hobject with ⟨hcommit', -⟩ | ⟨-, target, htarget, -⟩
            · exact absurd hcommit' hcommit
            · exact ⟨target, htarget⟩
          refine Ensures.bind (reads_get (.tagObject object.sha) .empty false) ?_ ?_
          · rintro u (answer | target) ⟨rfl, hserved'⟩
            · exact absurd hserved'.1 (by decide)
            · have hnames : u.hub.Names candidate.tag target.sha :=
                ⟨object, href, .inr ⟨htag, target, hserved'.1, rfl⟩⟩
              exact reads_done (.inr ⟨_, hnames⟩) hnames
          · rintro u e ⟨rfl, he⟩
            refine ⟨rfl, he.imp id ?_⟩
            rintro ⟨-, hnone⟩ (huntagged | ⟨sha, hnames⟩)
            · exact htagged huntagged
            · obtain ⟨target, hobject⟩ := htarget sha hnames
              exact hnone target ⟨hobject, rfl⟩
        · rw [if_neg htag]
          refine reads_fail ?_
          rintro (huntagged | ⟨sha, object', href', hobject⟩)
          · exact htagged huntagged
          · obtain rfl : object = object' := Option.some.inj (href.symm.trans href')
            rcases hobject with ⟨hcommit', -⟩ | ⟨htag', -⟩
            · exact hcommit hcommit'
            · exact htag htag'
  · rintro t e ⟨rfl, he⟩
    refine ⟨rfl, .inl ?_⟩
    rcases he with hcut | ⟨hallowed, -⟩
    · exact hcut
    · cases hallowed

theorem unpack_reads {file : String} {content : Bytes} (hfile : s.files file = some content) :
    Reads candidate.repo attest cut (unpack lib file) (∃ files, filesOf lib content = .ok files)
      (fun files => filesOf lib content = .ok files) s := by
  refine (readFile_reads file).bind (fun _ => ⟨content, hfile⟩) ?_
  intro other _ hother
  obtain rfl : content = other := Option.some.inj (hfile.symm.trans hother)
  unfold filesOf
  split
  · rename_i entries hunpack
    rw [hunpack]
    exact reads_done ⟨_, rfl⟩ rfl
  · rename_i name hunpack
    rw [hunpack]
    refine reads_fail ?_
    rintro ⟨files, hfiles⟩
    cases hfiles

/-- The content check: it passes the files of the build, and a failed one blocks. -/
theorem contentCheck_reads {sha fromTag published : String} {zip built : Bytes}
    (hbuilt : s.files fromTag = some built) (hzip : s.files published = some zip) :
    Reads candidate.repo attest cut
      (contentCheck lib candidate sha false (lib.sha256 built) (lib.sha256 zip) fromTag published)
      (lib.sha256 zip = lib.sha256 built ∨
        (∃ files, filesOf lib built = .ok files) ∧ ∃ files, filesOf lib zip = .ok files)
      (fun check => (check.ok = true ↔ SameFiles lib zip built ∨ Collide lib zip built) ∧
        (check.ok = false → check.blocking = true)) s := by
  unfold contentCheck
  split
  · rename_i hdigest
    exact reads_done (.inl hdigest) ⟨⟨fun _ => sameFiles_or_collide_iff.mpr (.inl hdigest), fun _ => rfl⟩, nofun⟩
  · rename_i hdigest
    refine (unpack_reads hbuilt).bind (fun h => (h.resolve_left hdigest).1) ?_
    intro reference hreferences hreference
    refine (unpack_reads hzip).bind (fun h => (h.resolve_left hdigest).2) ?_
    intro shipped hshippeds hshipped
    refine reads_done (.inr ⟨hreferences, hshippeds⟩) ?_
    unfold driftCheck
    split
    · rename_i heq
      refine ⟨⟨fun _ => sameFiles_or_collide_iff.mpr (.inr ⟨reference, ?_, hreference⟩), fun _ => rfl⟩, nofun⟩
      exact heq ▸ hshipped
    · rename_i hne
      refine ⟨⟨fun hok => absurd hok (by simp), ?_⟩, fun _ => rfl⟩
      intro hsame
      rcases sameFiles_or_collide_iff.mp hsame with hsha | ⟨files, hfiles, hfiles'⟩
      · exact absurd hsha hdigest
      · have hreferenceFiles : reference = files := Except.ok.inj (hreference.symm.trans hfiles')
        have hshippedFiles : shipped = files := Except.ok.inj (hshipped.symm.trans hfiles)
        exact absurd (hreferenceFiles.trans hshippedFiles.symm) hne

theorem attestationCheck_reads (zip digest : String) :
    Reads candidate.repo attest cut (attestationCheck candidate zip digest) True
      (fun check => check.blocking = false ∧
        (check.ok = true → Verified attest candidate (s.files zip) digest) ∧
        (check.ok = false → cut ∨ ¬ Verified attest candidate (s.files zip) digest)) s := by
  unfold attestationCheck catchStop
  have hcheck : Ensures (attended candidate.repo attest cut) (fun t _ => t = s)
      (do
        verifyAttestation candidate zip digest
        return (⟨"attestation", true, "covers the ZIP and source commit " ++ short candidate.sha, false⟩ : Check))
      (fun t out => t = s ∧
        match out with
        | .ok check => check.ok = true ∧ check.blocking = false ∧ Verified attest candidate (s.files zip) digest
        | .error e => cut ∨ ¬ Verified attest candidate (s.files zip) digest ∧ ∃ message, e = .stop message) s := by
    refine Ensures.bind (verifyAttestation_following zip digest) ?_ ?_
    · rintro t _ ⟨rfl, hverified⟩
      exact ⟨rfl, rfl, rfl, hverified⟩
    · rintro t e ⟨rfl, he⟩
      exact ⟨rfl, he⟩
  refine Ensures.tryCatch hcheck ?_ ?_
  · rintro t check ⟨rfl, hok, hblocking, hverified⟩
    refine ⟨rfl, trivial, hblocking, fun _ => hverified, fun hfailed => ?_⟩
    rw [hok] at hfailed
    cases hfailed
  · rintro t e ⟨rfl, he⟩
    cases e with
    | stop message => exact ⟨rfl, trivial, rfl, nofun, fun _ => he.imp id And.left⟩
    | failure message =>
      refine ⟨rfl, .inl ?_⟩
      rcases he with hcut | ⟨-, message, hstop⟩
      · exact hcut
      · cases hstop
    | crash name =>
      refine ⟨rfl, .inl ?_⟩
      rcases he with hcut | ⟨-, message, hstop⟩
      · exact hcut
      · cases hstop

theorem join_ne {workdir name other : String} (h : name ≠ other) : join workdir name ≠ join workdir other := by
  unfold join
  intro heq
  exact h ((String.append_right_inj _).mp heq)

theorem versionNumbers_reads {numbers : List Int} (hversion : versionNumbers lib candidate.version = .ok numbers) :
    Reads candidate.repo attest cut (raised (versionNumbers lib candidate.version)) True
      (fun given => given = numbers) s := by
  rw [hversion]
  exact reads_done trivial rfl

/-- What the checks of a release tell. A failed one blocks, but for a missing tag
and a missing attestation. -/
inductive Told (lib : Libraries) (git : Git) (candidate : Candidate) (attest : Attest) (cut : Prop) (s : Flow)
    (release : Release) : List Check → Prop
  | missing (check : Check) (huntagged : Untagged candidate s) (hfailed : check.ok = false)
    (hblocking : check.blocking = false) : Told lib git candidate attest cut s release [check]
  | unlike (sha : String) (tag content : Check) (hnames : s.hub.Names candidate.tag sha) (htag : tag.ok = true)
    (hfailed : content.ok = false) (hblocking : content.blocking = true)
    (hnone : ∀ zip built, ¬ Ships lib git release sha zip built) :
    Told lib git candidate attest cut s release [tag, content]
  | alike (sha : String) (zip : Asset) (built : Bytes) (tag content attested : Check)
    (hnames : s.hub.Names candidate.tag sha) (hships : Ships lib git release sha zip built)
    (htag : tag.ok = true) (hcontent : content.ok = true) (hblocking : attested.blocking = false)
    (hverified : attested.ok = true →
      Verified attest { candidate with sha := sha } (some zip.content) (lib.sha256 zip.content))
    (hfailed : attested.ok = false →
      cut ∨ ¬ Verified attest { candidate with sha := sha } (some zip.content) (lib.sha256 zip.content)) :
    Told lib git candidate attest cut s release [tag, content, attested]

/-- The release can be checked, whatever comes of it: its tag names something, and
where it has a ZIP, that is one a build of its commit can be compared with. -/
def Checkable (lib : Libraries) (git : Git) (candidate : Candidate) (s : Flow) (release : Release) : Prop :=
  Untagged candidate s ∨ ∃ sha, s.hub.Names candidate.tag sha ∧ ∀ zip ∈ release.assets, zip.name = assetName →
    ∃ built, build lib git sha = .ok built ∧ (lib.sha256 zip.content = lib.sha256 built ∨
      (∃ files, filesOf lib built = .ok files) ∧ ∃ files, filesOf lib zip.content = .ok files)

theorem checkPublished_works {numbers : List Int} (hversion : versionNumbers lib candidate.version = .ok numbers)
    (hnew : ¬ numbers < firstZipVersion) (hrelease : release ∈ s.hub.releases) (workdir : String) :
    Works candidate.repo attest cut (checkPublished lib git gh candidate release.answer workdir)
      (Checkable lib git candidate s release)
      (fun _ checks => Told lib git candidate attest cut s release checks) s := by
  refine reads_tagSha.works.bind ?_ ?_
  · rintro (huntagged | ⟨sha, hnames, -⟩)
    · exact .inl huntagged
    · exact .inr ⟨sha, hnames⟩
  rintro t tag - - ⟨rfl, htag⟩
  cases tag with
  | none => exact works_done (.inl htag) (.missing _ htag rfl rfl)
  | some sha =>
    have hnames : t.hub.Names candidate.tag sha := htag
    refine (versionNumbers_reads hversion).works.bind (fun _ => trivial) ?_
    rintro u given - - ⟨rfl, rfl⟩
    have hpredates : decide (given < firstZipVersion) = false := decide_eq_false hnew
    dsimp only
    rw [hpredates]
    rcases zips_answer release with ⟨hzips, hnone⟩ | ⟨zip, hzip, hname, rest, hzips⟩
    · rw [hzips]
      refine works_done (.inr ⟨sha, hnames, fun zip hzip hname => absurd hname (hnone zip hzip)⟩) ?_
      exact .unlike sha _ _ hnames rfl rfl rfl (fun zip built hships => hnone zip hships.listed hships.name)
    · rw [hzips]
      have hcheckable : Checkable lib git candidate u release →
          ∃ built, build lib git sha = .ok built ∧ (lib.sha256 zip.content = lib.sha256 built ∨
            (∃ files, filesOf lib built = .ok files) ∧ ∃ files, filesOf lib zip.content = .ok files) := by
        rintro (huntagged | ⟨other, hother, hall⟩)
        · obtain ⟨object, href, -⟩ := hnames
          exact absurd (huntagged.symm.trans href) nofun
        · obtain rfl := hother.unique hnames
          exact hall zip hzip hname
      have hends : ∀ built, build lib git sha = .ok built →
          (lib.sha256 zip.content = lib.sha256 built ∨
            (∃ files, filesOf lib built = .ok files) ∧ ∃ files, filesOf lib zip.content = .ok files) →
          Checkable lib git candidate u release := by
        intro built hbuilt hcomparable
        refine .inr ⟨sha, hnames, fun other hother hname' => ?_⟩
        obtain rfl := asset_unique hzip hother hname hname'
        exact ⟨built, hbuilt, hcomparable⟩
      dsimp only
      refine (buildZip_works sha _).bind (fun h => (hcheckable h).imp fun _ hb => hb.1) ?_
      rintro v expected huv - ⟨built, hbuilt, rfl, hfiles⟩
      have hrelease' : release ∈ v.hub.releases := huv.hub ▸ hrelease
      refine (downloadAsset_works hrelease' hzip _).bind (fun _ => trivial) ?_
      rintro w actual hvw - ⟨rfl, hfiles'⟩
      have hfresh : w.files (join workdir "from-tag.zip") = some built := by
        rw [hfiles', Function.update_of_ne (join_ne (by decide)), hfiles, Function.update_self]
      have hloaded : w.files (join workdir "published.zip") = some zip.content := by
        rw [hfiles', Function.update_self]
      have hcomparable : Checkable lib git candidate u release →
          lib.sha256 zip.content = lib.sha256 built ∨
            (∃ files, filesOf lib built = .ok files) ∧ ∃ files, filesOf lib zip.content = .ok files := by
        intro h
        obtain ⟨other, hother, hsame⟩ := hcheckable h
        obtain rfl : other = built := Except.ok.inj (hother.symm.trans hbuilt)
        exact hsame
      refine (contentCheck_reads hfresh hloaded).works.bind hcomparable ?_
      rintro x content - hcomparable' ⟨rfl, hcontent, hblocking⟩
      have hchecked : Checkable lib git candidate u release := hends built hbuilt hcomparable'
      split
      · rename_i hok
        have hships : Ships lib git release sha zip built := ⟨hzip, hname, hbuilt, hcontent.mp hok⟩
        have hcheck : Works candidate.repo attest cut
            (attestationCheck { candidate with sha := sha } (join workdir "published.zip")
              (lib.sha256 zip.content)) True _ x :=
          (attestationCheck_reads _ _).works
        refine hcheck.bind (fun _ => trivial) ?_
        rintro y attested - - ⟨rfl, hreporting, hverified, hfailed⟩
        rw [hloaded] at hverified hfailed
        exact works_done hchecked
          (.alike sha zip built _ _ _ hnames hships rfl hok hreporting hverified hfailed)
      · rename_i hfailed
        have hfalse : content.ok = false := by simpa using hfailed
        refine works_done hchecked (.unlike sha _ _ hnames rfl hfalse (hblocking hfalse) ?_)
        intro other built' hships
        obtain rfl := asset_unique hzip hships.listed hname hships.name
        obtain rfl : built' = built := Except.ok.inj (hships.fresh.symm.trans hbuilt)
        exact hfailed (hcontent.mpr hships.files)

theorem Untagged.not_names {sha : String} (h : Untagged candidate s) : ¬ s.hub.Names candidate.tag sha := by
  rintro ⟨object, href, -⟩
  exact absurd (h.symm.trans href) nofun

theorem ProvedOn.checkable {strict : Bool} (h : ProvedOn lib git candidate attest strict s.hub release) :
    Checkable lib git candidate s release := by
  obtain ⟨sha, zip, built, hnames, hships, -⟩ := h
  refine .inr ⟨sha, hnames, fun other hother hname => ?_⟩
  obtain rfl := asset_unique hships.listed hother hships.name hname
  refine ⟨built, hships.fresh, ?_⟩
  rcases sameFiles_or_collide_iff.mp hships.files with hdigest | ⟨files, hfiles, hfiles'⟩
  · exact .inl hdigest
  · exact .inr ⟨⟨files, hfiles'⟩, files, hfiles⟩

/-- When a published release is passed over. -/
def PassedOver (lib : Libraries) (git : Git) (candidate : Candidate) (attest : Attest) (strict : Bool) (s : Flow)
    (release : Release) : Prop :=
  strict = false ∧ Untagged candidate s ∨ ProvedOn lib git candidate attest strict s.hub release

/-- The checks that stop the script. -/
def worse (strict : Bool) (checks : List Check) : List Check :=
  checks.filter (fun check => !check.ok && (check.blocking || strict))

theorem Told.worse_iff {checks : List Check} (h : Told lib git candidate attest cut s release checks)
    (strict : Bool) :
    (worse strict checks = [] → PassedOver lib git candidate attest strict s release) ∧
      (worse strict checks ≠ [] → cut ∨ ¬ PassedOver lib git candidate attest strict s release) := by
  cases h with
  | missing check huntagged hfailed hblocking =>
    have hworse : worse strict [check] = if strict = true then [check] else [] := by
      simp [worse, List.filter_cons, hfailed, hblocking]
    rw [hworse]
    cases strict with
    | false => exact ⟨fun _ => .inl ⟨rfl, huntagged⟩, fun h => absurd rfl h⟩
    | true =>
      refine ⟨nofun, fun _ => .inr ?_⟩
      rintro (⟨hstrict, -⟩ | ⟨sha, zip, built, hnames, -⟩)
      · cases hstrict
      · exact huntagged.not_names hnames
  | unlike sha tag content hnames htag hfailed hblocking hnone =>
    have hworse : worse strict [tag, content] = [content] := by
      simp [worse, htag, hfailed, hblocking]
    rw [hworse]
    refine ⟨nofun, fun _ => .inr ?_⟩
    rintro (⟨-, huntagged⟩ | ⟨other, zip, built, hother, hships, -⟩)
    · exact huntagged.not_names hnames
    · obtain rfl := hnames.unique hother
      exact hnone zip built hships
  | alike sha zip built tag content attested hnames hships htag hcontent hblocking hverified hfailed =>
    have hworse : worse strict [tag, content, attested] =
        if !attested.ok && strict then [attested] else [] := by
      simp [worse, List.filter_cons, htag, hcontent, hblocking]
    rw [hworse]
    cases hattested : attested.ok with
    | true => exact ⟨fun _ => .inr ⟨sha, zip, built, hnames, hships, fun _ => hverified hattested⟩, fun h => absurd rfl h⟩
    | false =>
      cases strict with
      | false => exact ⟨fun _ => .inr ⟨sha, zip, built, hnames, hships, nofun⟩, fun h => absurd rfl h⟩
      | true =>
        refine ⟨nofun, fun _ => (hfailed hattested).imp id ?_⟩
        rintro hunverified (⟨hstrict, -⟩ | ⟨other, zip', built', hother, hships', hverified'⟩)
        · cases hstrict
        · obtain rfl := hnames.unique hother
          obtain rfl := asset_unique hships.listed hships'.listed hships.name hships'.name
          exact hunverified (hverified' rfl)

theorem proved_works {numbers : List Int} (hversion : versionNumbers lib candidate.version = .ok numbers)
    (hnew : ¬ numbers < firstZipVersion) (hrelease : release ∈ s.hub.releases) (arguments : Arguments) :
    Works candidate.repo attest cut (proved lib git gh candidate arguments release.answer)
      (PassedOver lib git candidate attest arguments.strict s release) (fun _ _ => True) s := by
  have hcheckable : PassedOver lib git candidate attest arguments.strict s release →
      Checkable lib git candidate s release := by
    rintro (⟨-, huntagged⟩ | hproved)
    · exact .inl huntagged
    · exact hproved.checkable
  refine (checkPublished_works hversion hnew hrelease _).bind hcheckable ?_
  rintro t checks hst - htold
  obtain ⟨hpasses, hstops⟩ := htold.worse_iff arguments.strict
  split
  · rename_i hnone
    have hpassed := hpasses hnone
    exact (writeOutcome_reads "noop").works.mono ⟨fun _ => trivial, fun _ => hpassed⟩ (fun _ _ _ _ => trivial)
  · rename_i hsome
    exact ⟨.refl t, hstops hsome⟩

theorem run_published_works {numbers : List Int} (hnamed : s.hub.named candidate.tag = [release])
    (hout : release.draft = false) (hversion : versionNumbers lib candidate.version = .ok numbers)
    (hnew : ¬ numbers < firstZipVersion) (arguments : Arguments) :
    Works candidate.repo attest cut (run lib git gh candidate arguments)
      (PassedOver lib git candidate attest arguments.strict s release) (fun _ _ => True) s := by
  have hrelease : release ∈ s.hub.releases := (GitHub.mem_of_named hnamed).1
  refine (findRelease_reads hnamed (Nat.le_refl 1)).works.bind (fun _ => trivial) ?_
  rintro t found - - ⟨rfl, hfound⟩
  obtain rfl : found = some release.answer := hfound
  have hdraft : (release.answer.draft.getD false) = false := hout
  dsimp only
  rw [if_neg (by simp [hdraft])]
  have hkept : (some release.answer).filter (fun r => !r.draft.getD false) = some release.answer :=
    Option.filter_some_pos (by simp [hdraft])
  rw [hkept]
  exact proved_works hversion hnew hrelease arguments

/-- A run over a published release writes nothing. It ends well only if the
release is proved against its tag, or if the tag is missing and the run is not
strict; and then it does, unless a call is cut off. -/
theorem published_passed_over (lib : Libraries) (git : Git) (gh : Gh) (candidate : Candidate)
    (arguments : Arguments) (attest : Attest) (cut : Prop) (s : Flow) (release : Release) (numbers : List Int)
    (hnamed : s.hub.named candidate.tag = [release]) (hout : release.draft = false)
    (hversion : versionNumbers lib candidate.version = .ok numbers) (hnew : ¬ numbers < firstZipVersion) :
    (run lib git gh candidate arguments).Ensures (attended candidate.repo attest cut)
      (fun t _ => t.hub = s.hub ∧ t.uploads = s.uploads)
      (fun t out => t.hub = s.hub ∧ t.uploads = s.uploads ∧
        match out with
        | .ok _ => arguments.strict = false ∧ Untagged candidate s ∨
            ProvedOn lib git candidate attest arguments.strict s.hub release
        | .error _ => cut ∨ ¬ (arguments.strict = false ∧ Untagged candidate s ∨
            ProvedOn lib git candidate attest arguments.strict s.hub release)) s := by
  have hworks : Works candidate.repo attest cut (run lib git gh candidate arguments)
      (PassedOver lib git candidate attest arguments.strict s release) (fun _ _ => True) s :=
    run_published_works hnamed hout hversion hnew arguments
  refine (hworks.weaken (fun t op hst => ⟨hst.hub, hst.uploads⟩)).mono ?_
  rintro t (e | u) ⟨hst, hend⟩
  · exact ⟨hst.hub, hst.uploads, hend⟩
  · exact ⟨hst.hub, hst.uploads, hend.1⟩

end

/-! A published version, with its tag and without it. -/

namespace Rehearsal

def published : Release := { draft with draft := false }

theorem nodup_releaseIds : ([published].map Release.id).Nodup := List.nodup_singleton _

theorem nodup_assetIds : (([published].flatMap Release.assets).map Asset.id).Nodup := List.nodup_singleton _

def publishedHub (tagged : Bool) : GitHub :=
  { hub with
    refs := fun name => if tagged then hub.refs name else none
    releases := [published]
    releaseIds := nodup_releaseIds
    assetIds := nodup_assetIds }

def flow (tagged : Bool) : Flow := ⟨publishedHub tagged, fun _ => none, 0⟩

def attest : Attest := fun _ _ _ _ => .ok (some [[some (lib.sha256 manifest)]])

def gh : Gh := ⟨"owner/onesti-lock", false⟩

theorem named_published (tagged : Bool) : (flow tagged).hub.named candidate.tag = [published] := by
  have htag : published.tagName = candidate.tag := by decide
  show [published].filter (fun r => r.tagName = candidate.tag) = [published]
  simp [htag]

theorem versionNumbers_candidate : versionNumbers lib candidate.version = .ok [1, 5, 0] := by decide +kernel

theorem not_predates : ¬ ([1, 5, 0] : List Int) < firstZipVersion := by decide

theorem untagged : Untagged candidate (flow false) := rfl

theorem provedOn_published : ProvedOn lib git candidate attest true (flow true).hub published := by
  refine ⟨sha, ⟨8, assetName, manifest⟩, manifest, ?_, ⟨List.mem_cons_self, rfl, by decide +kernel, .inl (.inl rfl)⟩, ?_⟩
  · exact ⟨⟨"tag", "fedc"⟩, by decide, .inr ⟨rfl, ⟨"commit", sha⟩, by decide, rfl⟩⟩
  · intro _
    exact ⟨_, rfl, by decide⟩

end Rehearsal

theorem published_passed_over_rehearsal :
    ∃ t, Steps (attended "owner/onesti-lock" Rehearsal.attest False) (Rehearsal.flow true)
      (run Rehearsal.lib Rehearsal.git Rehearsal.gh Rehearsal.candidate { Rehearsal.arguments with strict := true })
      t (.done ()) ∧ t.hub = Rehearsal.publishedHub true := by
  have hensures := published_passed_over Rehearsal.lib Rehearsal.git Rehearsal.gh Rehearsal.candidate
    { Rehearsal.arguments with strict := true } Rehearsal.attest False (Rehearsal.flow true) Rehearsal.published
    [1, 5, 0] (Rehearsal.named_published true) rfl Rehearsal.versionNumbers_candidate Rehearsal.not_predates
  obtain ⟨t, out, hsteps, hhub, -, hend⟩ := hensures.exists_ended (attended_answers _ _ _)
  cases out with
  | ok u => exact ⟨t, hsteps, hhub⟩
  | error e =>
    rcases hend with hcut | hnot
    · exact absurd hcut id
    · exact absurd (.inr Rehearsal.provedOn_published) hnot

/-- Without its tag the release is passed over all the same. -/
theorem untagged_passed_over :
    ∃ t, Steps (attended "owner/onesti-lock" Rehearsal.attest False) (Rehearsal.flow false)
      (run Rehearsal.lib Rehearsal.git Rehearsal.gh Rehearsal.candidate Rehearsal.arguments) t (.done ()) ∧
      (Rehearsal.flow false).hub.named Rehearsal.candidate.tag = [Rehearsal.published] ∧
      Rehearsal.published.draft = false ∧
      versionNumbers Rehearsal.lib Rehearsal.candidate.version = .ok [1, 5, 0] ∧
      ¬ ([1, 5, 0] : List Int) < firstZipVersion ∧
      ∀ sha, ¬ (Rehearsal.flow false).hub.Names Rehearsal.candidate.tag sha := by
  have hworks : Works "owner/onesti-lock" Rehearsal.attest False
      (run Rehearsal.lib Rehearsal.git Rehearsal.gh Rehearsal.candidate Rehearsal.arguments)
      (PassedOver Rehearsal.lib Rehearsal.git Rehearsal.candidate Rehearsal.attest false (Rehearsal.flow false)
        Rehearsal.published) (fun _ _ => True) (Rehearsal.flow false) :=
    run_published_works (Rehearsal.named_published false) rfl Rehearsal.versionNumbers_candidate
      Rehearsal.not_predates Rehearsal.arguments
  obtain ⟨t, out, hsteps, -, hend⟩ := hworks.exists_ended (attended_answers _ _ _)
  cases out with
  | ok u =>
    exact ⟨t, hsteps, Rehearsal.named_published false, rfl, Rehearsal.versionNumbers_candidate,
      Rehearsal.not_predates, fun sha => Rehearsal.untagged.not_names⟩
  | error e =>
    rcases hend with hcut | hnot
    · exact absurd hcut id
    · exact absurd (.inl ⟨rfl, Rehearsal.untagged⟩) hnot

end ReleasePublish

end OnestiLock
