import OnestiLock.GitHub
import OnestiLock.ReleaseBuild

/-! The state machine that ships a version (`scripts/release_publish.py`), as a
program over GitHub and the files of the machine it runs on. -/

namespace OnestiLock.ReleasePublish

open Program

/-- What `gh attestation verify` tells of one attestation: its subjects' digests. -/
abbrev AttestationAnswer := List (Option String)

inductive Op
  | api (method : Method) (repo : String) (endpoint : Endpoint) (payload : Payload)
  | raw (repo : String) (asset : Nat)
  | attestation (zip repo sourceDigest signerWorkflow : String)
  | readFile (path : String)
  | writeFile (path : String) (content : Bytes)
  | writeOutcome (outcome : String) (candidate : Candidate)
  deriving DecidableEq

/-- A `none` of an attestation call is an answer that is no list. -/
abbrev Reply : Op → Type
  | .api method _ endpoint _ => Except Fault (Option (Answer method endpoint))
  | .raw _ _ => Except String Bytes
  | .attestation _ _ _ _ => Except Fault (Option (List AttestationAnswer))
  | .readFile _ => Except String Bytes
  | .writeFile _ _ => Except String Unit
  | .writeOutcome _ _ => Except String Unit

abbrev Script (α : Type) := Program Op Reply Halt α

def raised {α : Type} : Except Halt α → Script α
  | .ok a => .done a
  | .error e => .fail e

/-! The layers over `gh` and the file system. -/

def Method.name : Method → String
  | .get => "GET"
  | .post => "POST"
  | .patch => "PATCH"
  | .put => "PUT"
  | .delete => "DELETE"

def path (repo : String) : Endpoint → String
  | .repository => "repos/" ++ repo
  | .comparison base head => "repos/" ++ repo ++ "/compare/" ++ base ++ "..." ++ head
  | .ref name => "repos/" ++ repo ++ "/git/ref/" ++ name
  | .tagObject sha => "repos/" ++ repo ++ "/git/tags/" ++ sha
  | .refs => "repos/" ++ repo ++ "/git/refs"
  | .releases => "repos/" ++ repo ++ "/releases"
  | .latest => "repos/" ++ repo ++ "/releases/latest"
  | .release id => "repos/" ++ repo ++ "/releases/" ++ toString id
  | .assets id name =>
    "https://uploads.github.com/repos/" ++ repo ++ "/releases/" ++ toString id ++ "/assets?name=" ++ name
  | .asset id => "repos/" ++ repo ++ "/releases/assets/" ++ toString id

structure Gh where
  repo : String
  dryRun : Bool

def isNotFound (message : String) : Bool := decide ("HTTP 404".toList <:+: message.toList)

/-- `Gh.api`, with `none` for an empty answer and for an allowed 404. -/
def Gh.api (gh : Gh) (method : Method) (repo : String) (endpoint : Endpoint) (payload : Payload)
    (allow404 : Bool) : Script (Option (Answer method endpoint)) :=
  if method ≠ .get ∧ gh.dryRun = true then
    .fail (.failure ("a dry run tried to write: " ++ Method.name method ++ " " ++ path repo endpoint))
  else
    .call (.api method repo endpoint payload) fun
      | .ok answer => .done answer
      | .error (.exit message) =>
        if allow404 && isNotFound message then .done none
        else .fail (.failure ("gh api " ++ Method.name method ++ " " ++ path repo endpoint ++ " failed: " ++ message))
      | .error .unreadable => .fail (.crash "JSONDecodeError")

/-- `Gh.raw` of an asset. -/
def raw (repo : String) (asset : Nat) : Script Bytes :=
  .call (.raw repo asset) fun
    | .ok content => .done content
    | .error message => .fail (.failure ("gh api " ++ path repo (.asset asset) ++ " failed: " ++ message))

def attestation (zip repo sourceDigest signer : String) : Script (Option (List AttestationAnswer)) :=
  .call (.attestation zip repo sourceDigest signer) fun
    | .ok answer => .done answer
    | .error (.exit message) => .fail (.stop ("gh attestation verify failed:\n" ++ message))
    | .error .unreadable => .fail (.crash "JSONDecodeError")

def readFile (file : String) : Script Bytes :=
  .call (.readFile file) fun
    | .ok content => .done content
    | .error name => .fail (.crash name)

def writeFile (file : String) (content : Bytes) : Script Unit :=
  .call (.writeFile file content) fun
    | .ok () => .done ()
    | .error name => .fail (.crash name)

def writeOutcome (outcome : String) (candidate : Candidate) : Script Unit :=
  .call (.writeOutcome outcome candidate) fun
    | .ok () => .done ()
    | .error name => .fail (.crash name)

/-- `except Failure`. -/
def catchFailure {α : Type} (p : Script α) (handler : String → Script α) : Script α :=
  p.tryCatch fun
    | .failure message => handler message
    | e => .fail e

/-- `except Stop`. -/
def catchStop {α : Type} (p : Script α) (handler : String → Script α) : Script α :=
  p.tryCatch fun
    | .stop message => handler message
    | e => .fail e

/-- `workdir / name`. -/
def join (workdir name : String) : String := workdir ++ "/" ++ name

section

variable (lib : Libraries) (git : Git) (gh : Gh) (candidate : Candidate)

def sha256Of (file : String) : Script String := do
  let content ← readFile file
  return lib.sha256 content

def buildZip (sha target : String) : Script String := do
  let content ← raised (build lib git sha)
  writeFile target content
  sha256Of lib target

def tagSha : Script (Option String) := do
  match ← gh.api .get candidate.repo (.ref ("tags/" ++ candidate.tag)) .empty true with
  | none => return none
  | some object =>
    if object.type = "commit" then return some object.sha
    else if object.type = "tag" then
      match ← gh.api .get candidate.repo (.tagObject object.sha) .empty false with
      | none => .fail (.crash "TypeError")
      | some target => return some target.sha
    else
      .fail (.stop (candidate.tag ++ " points at a " ++ object.type ++ " object, which is not a commit"))

def findRelease : Script (Option ReleaseAnswer) := do
  let releases ← gh.api .get candidate.repo .releases .empty false
  match (releases.getD []).filter (fun r => r.tagName = some candidate.tag) with
  | [] => return none
  | [release] => return some release
  | hits =>
    .fail (.stop (toString hits.length ++ " releases carry the tag " ++ candidate.tag ++
      ". Clean up by hand; the flow does not know which one is the right one."))

/-- A text that is there and not empty. -/
def nonempty (text : Option String) : Option String := text.filter (· ≠ "")

def requireMainBranch (trial : Bool) : Script Unit :=
  if trial then
    if candidate.version ≠ trialVersion then
      .fail (.stop ("a trial release only covers version " ++ trialVersion ++ ", but the candidate is " ++
        candidate.version ++ ". Real versions ship from the main branch."))
    else .done ()
  else do
    let repository ← gh.api .get candidate.repo .repository .empty false
    let main := (nonempty (repository.getD none)).getD "main"
    match ← gh.api .get candidate.repo (.comparison main candidate.sha) .empty true with
    | none =>
      .fail (.stop ("GitHub does not know " ++ short candidate.sha ++ ". If the commit was never pushed to " ++
        main ++ ", there is nothing to release."))
    | some answer =>
      let status := (nonempty answer).getD "unknown"
      if status ∉ ["identical", "behind"] then
        .fail (.stop (short candidate.sha ++ " is not on " ++ main ++ " (status: " ++ status ++ ").\n" ++
          "What reaches users comes from the main branch. Merge it in first, " ++
          "or run a trial release with manifest version " ++ trialVersion ++ "."))
      else .done ()

/-- Python's text of a list of texts without quotes in them. -/
def listText (texts : List String) : String := "['" ++ "', '".intercalate texts ++ "']"

def verifyAttestation (zip digest : String) : Script Unit := do
  match ← attestation zip candidate.repo candidate.sha (candidate.repo ++ "/" ++ signerWorkflow) with
  | none | some [] => .fail (.stop "gh attestation verify returned no attestations for the ZIP")
  | some answers =>
    if some digest ∉ answers.flatten then
      .fail (.stop ("the attestation covers " ++
        listText ((answers.flatten.reduceOption.filter (· ≠ "")).dedup.insertionSort (· ≤ ·)) ++
        ", not the ZIP we built (" ++ digest ++
        "). Tag, ZIP and attestation are then not the same artifact."))
    else .done ()

def downloadAsset (asset : AssetAnswer) (target : String) : Script String := do
  let content ← raw candidate.repo asset.id
  writeFile target content
  sha256Of lib target

def commitsSincePrevious : Except Halt String := do
  let tags ← git.textOf ["tag", "--sort=-version:refname"]
  let others := (((tags.toList.splitOn '\n').map String.ofList).filter (· ≠ "")).filter (· ≠ candidate.tag)
  let span := others.head?.elim candidate.sha (fun tag => tag ++ ".." ++ candidate.sha)
  let log ← git.textOf ["log", span, "--pretty=format:- %s", "--no-merges"]
  return if log = "" then "- First release" else log

def buildBody (releaseNote : String → Except Halt String) (digest : String) : Except Halt String := do
  let url := "https://github.com/" ++ candidate.repo
  let note ← releaseNote candidate.version
  let commits ← commitsSincePrevious git candidate
  return "\n".intercalate [note, "", "## Verification", "",
    "Built from commit [\x60" ++ short candidate.sha ++ "\x60](" ++ url ++ "/commit/" ++ candidate.sha ++
      "), the commit the tag \x60" ++ candidate.tag ++ "\x60 points at.", "",
    "**SHA256:** \x60" ++ digest ++ "\x60 ([how to verify](" ++ url ++ "/blob/" ++ candidate.tag ++
      "/SECURITY.md))", "",
    "<details>", "<summary>All commits</summary>", "", commits, "", "</details>"]

def shouldBeLatest : Script Bool :=
  if candidate.version = trialVersion then .done false
  else do
    match ← gh.api .get candidate.repo .latest .empty true with
    | none => return true
    | some latest =>
      let current := String.ofList ((latest.tagName.getD "").toList.dropWhile (· = 'v'))
      if isVersion lib current then
        let ours ← raised (versionNumbers lib candidate.version)
        let theirs ← raised (versionNumbers lib current)
        return decide (theirs < ours)
      else return true

/-! The state machine. -/

def ensureTag : Script String := do
  let existing ← tagSha gh candidate
  if existing = some candidate.sha then return "unchanged"
  else match existing with
  | some sha =>
    .fail (.stop (candidate.tag ++ " already points at " ++ sha ++ ", while the candidate is " ++
      candidate.sha ++ ".\nThe tag is not moved automatically. Either the version shipped from another commit, " ++
      "or this change goes out as a new version."))
  | none =>
    if gh.dryRun then return "would create"
    else
      let _ ← gh.api .post candidate.repo .refs (.ref ("refs/tags/" ++ candidate.tag) candidate.sha) false
      return "created"

def requireDraftOnCandidate (release : ReleaseAnswer) : Except Halt Unit :=
  let target := release.targetCommitish.getD ""
  if isFullSha target ∧ target ≠ candidate.sha then
    .error (.stop ("the draft for " ++ candidate.tag ++ " was made for " ++ short target ++
      ", while the candidate is " ++ short candidate.sha ++
      ".\nIt is not reused on another commit: the body would describe something other than " ++
      "what is in the ZIP. Delete the draft, or ship this as a new version."))
  else .ok ()

def ensureDraft (release : Option ReleaseAnswer) (body : String) :
    Script (Option ReleaseAnswer × String) :=
  match release with
  | some release => .done (some release, "reused")
  | none =>
    if gh.dryRun then .done (none, "would create")
    else do
      let created ← gh.api .post candidate.repo .releases (.release {
        tagName := some candidate.tag
        targetCommitish := some candidate.sha
        name := some candidate.tag
        body := some body
        draft := some true
        prerelease := some (candidate.version == trialVersion) }) false
      return (created, "created")

/-- The assets of a release with the ZIP's name. -/
def zips (release : ReleaseAnswer) : List AssetAnswer :=
  (release.assets.getD []).filter (fun asset => asset.name = some assetName)

def ensureAsset (release : ReleaseAnswer) (zip digest workdir : String) : Script String := do
  match zips release with
  | asset :: _ =>
    let loaded ← downloadAsset lib candidate asset (join workdir "readback.zip")
    if loaded = digest then return "already in place, digest agrees"
    else
      .fail (.stop (assetName ++ " on " ++ candidate.tag ++ " has sha256 " ++ loaded ++ ", but the build gives " ++
        digest ++ ".\nThe file is not swapped automatically: HACS installs exactly that one, and we do not " ++
        "know what it holds. Delete the asset deliberately, or ship a new version."))
  | [] =>
    if gh.dryRun then return "would upload"
    else
      catchFailure (do let _ ← gh.api .post candidate.repo (.assets release.id assetName) (.file zip) false)
        (fun _ => .done ())
      match ← gh.api .get candidate.repo (.release release.id) .empty false with
      | none => .fail (.crash "AttributeError")
      | some updated =>
        match zips updated with
        | [] => .fail (.failure (assetName ++ " was not uploaded to " ++ candidate.tag))
        | asset :: _ =>
          let loaded ← downloadAsset lib candidate asset (join workdir "readback.zip")
          if loaded ≠ digest then
            .fail (.stop (assetName ++ " was uploaded, but reads back as " ++ loaded ++ " and not " ++ digest ++
              ". Do not publish this."))
          else return "uploaded and read back"

/-- One link in the proof that a published release hangs together. -/
structure Check where
  name : String
  ok : Bool
  message : String
  blocking : Bool := false
  deriving DecidableEq, Repr

/-- A dict of the pairs, where the last of one name counts. -/
def lastOfName : List (String × Bytes) → List (String × Bytes)
  | [] => []
  | entry :: rest =>
    if rest.any (fun other => other.1 = entry.1) then lastOfName rest else entry :: lastOfName rest

/-- `_unpack`. -/
def unpack (file : String) : Script (List (String × Bytes)) := do
  let content ← readFile file
  match lib.unpack content with
  | .ok entries => return lastOfName entries
  | .error name => .fail (.crash name)

/-- The names only one of two ZIPs has, or else those whose contents differ. -/
def drift (reference shipped : List (String × Bytes)) : List String :=
  let names := reference.map Prod.fst
  let theirs := shipped.map Prod.fst
  match (names.filter (· ∉ theirs) ++ theirs.filter (· ∉ names)).insertionSort (· ≤ ·) with
  | [] => names.filter (fun name => reference.lookup name ≠ shipped.lookup name)
  | only => only

/-- The check of a published ZIP that is not byte-identical to its tag's build. -/
def driftCheck (sha : String) (predates : Bool) (reference shipped : List (String × Bytes)) : Check :=
  if reference = shipped then
    ⟨"content", true, "the files are the same as in " ++ short sha ++ ", but the ZIP is not byte-identical " ++
      "(packed before the flow became deterministic)", false⟩
  else
    let names := ", ".intercalate ((drift reference shipped).take 5)
    ⟨"content", false,
      if predates then
        "the ZIP on " ++ candidate.tag ++ " was packed by hand before this flow and is not the " ++
          "code the tag points at. Drift: " ++ names
      else "the ZIP is not the code the tag points at. Drift: " ++ names, !predates⟩

def contentCheck (sha : String) (predates : Bool) (expected actual fromTag published : String) :
    Script Check :=
  if actual = expected then
    .done ⟨"content", true, "byte-identical to a fresh build of " ++ short sha ++ " (" ++ actual ++ ")", false⟩
  else do
    let reference ← unpack lib fromTag
    let shipped ← unpack lib published
    return driftCheck candidate sha predates reference shipped

/-- A line break counts as a space. -/
def oneLine (text : String) : String := text.map (fun c => if c = '\n' then ' ' else c)

def attestationCheck (published digest : String) : Script Check :=
  catchStop
    (do
      verifyAttestation candidate published digest
      return ⟨"attestation", true, "covers the ZIP and source commit " ++ short candidate.sha, false⟩)
    (fun message => .done ⟨"attestation", false, oneLine message, false⟩)

def checkPublished (release : ReleaseAnswer) (workdir : String) : Script (List Check) := do
  match ← tagSha gh candidate with
  | none =>
    return [⟨"tag", false, candidate.tag ++ " does not exist, so the release cannot be proved against a commit",
      false⟩]
  | some sha =>
    let tag : Check := ⟨"tag", true, candidate.tag ++ " points at " ++ short sha, false⟩
    let numbers ← raised (versionNumbers lib candidate.version)
    let predates := decide (numbers < firstZipVersion)
    match zips release with
    | [] =>
      return [tag, ⟨"content", false,
        if predates then
          candidate.tag ++ " shipped before this flow, so it has no " ++ assetName ++ " to check. " ++
            "HACS installs it from the tag's source tree, and nothing can be attested after the fact."
        else "the release is missing " ++ assetName ++ ", so HACS has nothing to fetch. " ++
          "Repair it deliberately, or ship a new version.", !predates⟩]
    | asset :: _ =>
      let fromTag := join workdir "from-tag.zip"
      let published := join workdir "published.zip"
      let expected ← buildZip lib git sha fromTag
      let actual ← downloadAsset lib candidate asset published
      let content ← contentCheck lib candidate sha predates expected actual fromTag published
      if content.ok then
        let attested ← attestationCheck { candidate with sha := sha } published actual
        return [tag, content, attested]
      else return [tag, content]

/-- The arguments of `run`, with the release note of the repository's changelog. -/
structure Arguments where
  workdir : String
  releaseNote : String → Except Halt String
  zipPath : Option String
  planOnly : Bool
  requireAttestation : Bool
  strict : Bool
  trial : Bool

/-- A release that is out already is proved against its own tag. -/
def proved (arguments : Arguments) (release : ReleaseAnswer) : Script Unit := do
  let checks ← checkPublished lib git gh candidate release arguments.workdir
  match checks.filter (fun check => !check.ok && (check.blocking || arguments.strict)) with
  | [] => writeOutcome "noop" candidate
  | worse =>
    .fail (.stop (candidate.tag ++ " is published, but does not hang together:\n  " ++
      "\n  ".intercalate (worse.map Check.message)))

/-- The ZIP and its digest: built here, or handed over and compared with a build. -/
def candidateZip (arguments : Arguments) : Script (String × String) :=
  match arguments.zipPath with
  | none => do
    let zip := join arguments.workdir assetName
    let digest ← buildZip lib git candidate.sha zip
    return (zip, digest)
  | some zip => do
    let digest ← sha256Of lib zip
    let expected ← buildZip lib git candidate.sha (join arguments.workdir "control.zip")
    if digest ≠ expected then
      .fail (.stop ("the ZIP that was handed over has sha256 " ++ digest ++ ", but a fresh build of " ++
        short candidate.sha ++ " gives " ++ expected ++ ". Then the file is not built from the candidate."))
    else return (zip, digest)

/-- From the tag to the last call. -/
def publish (arguments : Arguments) (release : Option ReleaseAnswer) (body : String) (latest : Bool)
    (zip digest : String) : Script Unit := do
  let _ ← ensureTag gh candidate
  let draft ← ensureDraft gh candidate release body
  match draft.1 with
  | none => .fail (.crash "AssertionError")
  | some release =>
    let _ ← ensureAsset lib gh candidate release zip digest arguments.workdir
    let _ ← gh.api .patch candidate.repo (.release release.id) (.release {
      draft := some false
      makeLatest := some (toString latest) }) false

/-- Its result is `EXIT_OK`; the other exits are errors. -/
def run (arguments : Arguments) : Script Unit := do
  let release ← findRelease gh candidate
  if arguments.strict ∧ release.all (fun r => r.draft.getD false) then
    .fail (.stop (candidate.tag ++ " is not published (" ++
      (if release.isSome then "it is a draft" else "it does not exist") ++ "), so there is nothing to check."))
  else match release.filter (fun r => !r.draft.getD false) with
  | some release => proved lib git gh candidate arguments release
  | none =>
    requireMainBranch gh candidate arguments.trial
    raised (release.elim (.ok ()) (requireDraftOnCandidate candidate))
    writeOutcome "ready" candidate
    let zip ← candidateZip lib git candidate arguments
    if arguments.requireAttestation then verifyAttestation candidate zip.1 zip.2
    let body ← raised (buildBody git candidate arguments.releaseNote zip.2)
    let latest ← shouldBeLatest lib gh candidate
    if arguments.planOnly then
      let _ ← ensureTag gh candidate
    else publish lib gh candidate arguments release body latest zip.1 zip.2

end

end OnestiLock.ReleasePublish
