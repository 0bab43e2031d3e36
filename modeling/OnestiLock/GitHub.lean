import Mathlib.Data.List.Nodup
import Mathlib.Data.List.Infix
import Mathlib.Logic.Function.Basic
import OnestiLock.Program
import OnestiLock.Wire

/-! One repository on GitHub, and what its documented API does to it. A request
of any other kind may do anything. -/

namespace OnestiLock

/-- What a ref or an annotated tag points at. -/
structure GitObject where
  type : String
  sha : String
  deriving DecidableEq, Repr

structure Asset where
  id : Nat
  name : String
  content : Bytes
  deriving DecidableEq, Repr

/-- No two assets of a release have one name. -/
structure Release where
  id : Nat
  tagName : String
  targetCommitish : String
  body : Option String
  draft : Bool
  assets : List Asset
  names : (assets.map Asset.name).Nodup

/-- A signed statement that a workflow run built files with these sha256 digests
from a commit. -/
structure Attestation where
  repo : String
  sourceDigest : String
  signerWorkflow : String
  subjects : List String
  deriving DecidableEq, Repr

structure GitHub where
  defaultBranch : String
  /-- The status of a commit against a branch, if both are known. -/
  compare : String → String → Option String
  refs : String → Option GitObject
  /-- What an annotated tag points at, by the sha of its tag object. -/
  tagObjects : String → Option GitObject
  releases : List Release
  attestations : List Attestation
  defaultBranch_ne : defaultBranch ≠ ""
  releaseIds : (releases.map Release.id).Nodup
  assetIds : ((releases.flatMap Release.assets).map Asset.id).Nodup

inductive Method
  | get | post | patch | put | delete
  deriving DecidableEq, Repr

inductive Endpoint
  | repository
  | comparison (base head : String)
  | ref (name : String)
  | tagObject (sha : String)
  | refs
  | releases
  | latest
  | release (id : Nat)
  | assets (release : Nat) (name : String)
  | asset (id : Nat)
  deriving DecidableEq, Repr

/-- The fields a release is created or updated with; those left out keep their value. -/
structure ReleaseFields where
  tagName : Option String := none
  targetCommitish : Option String := none
  name : Option String := none
  body : Option String := none
  draft : Option Bool := none
  prerelease : Option Bool := none
  makeLatest : Option String := none
  deriving DecidableEq, Repr

inductive Payload
  | empty
  | ref (name sha : String)
  | release (fields : ReleaseFields)
  | file (path : String)
  deriving DecidableEq, Repr

/-! The answers, as the fields a caller may look up in them. -/

structure AssetAnswer where
  id : Nat
  name : Option String
  deriving DecidableEq, Repr

structure ReleaseAnswer where
  id : Nat
  tagName : Option String
  targetCommitish : Option String
  body : Option String
  draft : Option Bool
  assets : Option (List AssetAnswer)
  deriving DecidableEq, Repr

def Asset.answer (asset : Asset) : AssetAnswer := ⟨asset.id, some asset.name⟩

def Release.answer (release : Release) : ReleaseAnswer where
  id := release.id
  tagName := some release.tagName
  targetCommitish := some release.targetCommitish
  body := release.body
  draft := some release.draft
  assets := some (release.assets.map Asset.answer)

/-- What a request is answered with. -/
abbrev Answer : Method → Endpoint → Type
  | _, .repository => Option String
  | _, .comparison _ _ => Option String
  | _, .ref _ => GitObject
  | _, .tagObject _ => GitObject
  | _, .refs => GitObject
  | .get, .releases => List ReleaseAnswer
  | _, .releases => ReleaseAnswer
  | _, .latest => ReleaseAnswer
  | _, .release _ => ReleaseAnswer
  | _, .assets _ _ => AssetAnswer
  | _, .asset _ => AssetAnswer

namespace GitHub

/-- Everything but the refs and the releases is the same. -/
structure SameHistory (before after : GitHub) : Prop where
  defaultBranch : after.defaultBranch = before.defaultBranch
  compare : after.compare = before.compare
  tagObjects : after.tagObjects = before.tagObjects
  attestations : after.attestations = before.attestations

/-- A new ref; one that exists is refused. -/
structure CreatesRef (s : GitHub) (name : String) (object : GitObject) (t : GitHub) : Prop where
  same : s.SameHistory t
  absent : s.refs name = none
  refs : t.refs = Function.update s.refs name (some object)
  releases : t.releases = s.releases

/-- A new release. One that is no draft may bring the ref of its tag with it. -/
structure CreatesRelease (s : GitHub) (fields : ReleaseFields) (release : Release) (t : GitHub) : Prop where
  same : s.SameHistory t
  tagName : fields.tagName = some release.tagName
  targetCommitish : release.targetCommitish = fields.targetCommitish.getD s.defaultBranch
  body : release.body = fields.body
  draft : release.draft = fields.draft.getD false
  assets : release.assets = []
  refs : ∀ name object, s.refs name = some object → t.refs name = some object
  drafted : release.draft = true → t.refs = s.refs
  releases : t.releases = s.releases ++ [release]

end GitHub

def ReleaseFields.apply (fields : ReleaseFields) (release : Release) : Release :=
  { release with
    tagName := fields.tagName.getD release.tagName
    targetCommitish := fields.targetCommitish.getD release.targetCommitish
    body := fields.body.orElse (fun _ => release.body)
    draft := fields.draft.getD release.draft }

namespace GitHub

/-- New values for some fields. Publishing may bring the ref of the tag with it. -/
structure UpdatesRelease (s : GitHub) (id : Nat) (fields : ReleaseFields) (t : GitHub) : Prop where
  same : s.SameHistory t
  refs : ∀ name object, s.refs name = some object → t.refs name = some object
  releases : t.releases = s.releases.map (fun r => if r.id = id then fields.apply r else r)

/-- One more asset on a release. A second one of its name is refused. -/
structure StoresAsset (s : GitHub) (id : Nat) (asset : Asset) (t : GitHub) : Prop where
  same : s.SameHistory t
  refs : t.refs = s.refs
  releases : ∃ before release stored after, s.releases = before ++ release :: after ∧
    t.releases = before ++ stored :: after ∧ release.id = id ∧
    stored.id = release.id ∧ stored.tagName = release.tagName ∧
    stored.targetCommitish = release.targetCommitish ∧ stored.body = release.body ∧
    stored.draft = release.draft ∧ stored.assets = release.assets ++ [asset]

/-- A request that is carried out, and its answer. `read` gives the files an
upload may be made of. -/
def Serves (read : String → Option Bytes) (s : GitHub) :
    (method : Method) → (endpoint : Endpoint) → Payload → Answer method endpoint → GitHub → Prop
  | .get, .repository, _, answer, t => answer = some s.defaultBranch ∧ t = s
  | .get, .comparison base head, _, answer, t => (s.compare base head).map some = some answer ∧ t = s
  | .get, .ref name, _, answer, t => s.refs ("refs/" ++ name) = some answer ∧ t = s
  | .get, .tagObject sha, _, answer, t => s.tagObjects sha = some answer ∧ t = s
  | .get, .releases, _, answer, t => (∃ l : List Release, l.Perm s.releases ∧ answer = l.map Release.answer) ∧ t = s
  | .get, .latest, _, answer, t => (∃ r ∈ s.releases, r.draft = false ∧ answer = r.answer) ∧ t = s
  | .get, .release id, _, answer, t => (∃ r ∈ s.releases, r.id = id ∧ answer = r.answer) ∧ t = s
  | .get, _, _, _, t => t = s
  | .post, .refs, .ref name sha, answer, t => s.CreatesRef name answer t ∧ answer.sha = sha
  | .post, .releases, .release fields, answer, t => ∃ r, s.CreatesRelease fields r t ∧ answer = r.answer
  | .post, .assets id name, .file path, answer, t =>
    ∃ asset, s.StoresAsset id asset t ∧ asset.name = name ∧ read path = some asset.content ∧
      answer = asset.answer
  | .patch, .release id, .release fields, answer, t =>
    s.UpdatesRelease id fields t ∧ ∃ r ∈ t.releases, r.id = id ∧ answer = r.answer
  | _, _, _, _, _ => True

end GitHub

/-- A call without an answer: an error exit with its text, or output that does
not parse. -/
inductive Fault
  | exit (stderr : String)
  | unreadable
  deriving DecidableEq, Repr

namespace GitHub

/-- A failed request, whether it was carried out or not. -/
def Fails (read : String → Option Bytes) (s : GitHub) (method : Method) (endpoint : Endpoint) (payload : Payload)
    (reply : Except Fault (Option (Answer method endpoint))) (t : GitHub) : Prop :=
  (∃ fault, reply = .error fault) ∧
    (t = s ∨ method ≠ .get ∧ ∃ answer, s.Serves read method endpoint payload answer t)

/-- An upload that stores other bytes than it was given, whatever it answers. -/
def Garbles (s : GitHub) (method : Method) (endpoint : Endpoint) (t : GitHub) : Prop :=
  method = .post ∧ ∃ id asset, endpoint = .assets id asset.name ∧ s.StoresAsset id asset t

def Replies (read : String → Option Bytes) (s : GitHub) (method : Method) (endpoint : Endpoint)
    (payload : Payload) (reply : Except Fault (Option (Answer method endpoint))) (t : GitHub) : Prop :=
  (∃ answer, reply = .ok (some answer) ∧ s.Serves read method endpoint payload answer t) ∨
    s.Fails read method endpoint payload reply t ∨ s.Garbles method endpoint t

/-- The bytes of an asset, or an error. -/
def Downloads (s : GitHub) (id : Nat) (reply : Except String Bytes) : Prop :=
  ∀ content, reply = .ok content → ∃ r ∈ s.releases, ∃ asset ∈ r.assets, asset.id = id ∧ asset.content = content

end GitHub

end OnestiLock
