import OnestiLock.ReleaseKept

/-! A release goes public only when its tag, its ZIP, its attestation and its
commit's place on the main branch belong together. -/

namespace OnestiLock

namespace GitHub

/-- The tag is on a commit, itself or through an annotated tag. -/
def Resolves (s : GitHub) (tag sha : String) : Prop :=
  ∃ object, s.refs ("refs/tags/" ++ tag) = some object ∧
    (object.sha = sha ∨
      object.type = "tag" ∧ ∃ target, s.tagObjects object.sha = some target ∧ target.sha = sha)

def OnDefaultBranch (s : GitHub) (sha : String) : Prop :=
  s.compare s.defaultBranch sha = some "identical" ∨ s.compare s.defaultBranch sha = some "behind"

variable {s t : GitHub}

theorem Resolves.kept {tag sha : String} (h : s.Resolves tag sha) (hk : s.Kept t) : t.Resolves tag sha := by
  obtain ⟨object, hs, hr⟩ := h
  refine ⟨object, hk.refs _ _ hs, ?_⟩
  rw [hk.same.tagObjects]
  exact hr

theorem OnDefaultBranch.kept {sha : String} (h : s.OnDefaultBranch sha) (hk : s.Kept t) :
    t.OnDefaultBranch sha := by
  unfold OnDefaultBranch
  rw [hk.same.compare, hk.same.defaultBranch]
  exact h

theorem release_eq {r r' : Release} (hr : r ∈ s.releases) (hr' : r' ∈ s.releases) (h : r.id = r'.id) : r = r' :=
  List.inj_on_of_nodup_map s.releaseIds hr hr' h

theorem asset_eq {r r' : Release} {a a' : Asset} (hr : r ∈ s.releases) (hr' : r' ∈ s.releases)
    (ha : a ∈ r.assets) (ha' : a' ∈ r'.assets) (h : a.id = a'.id) : a = a' :=
  List.inj_on_of_nodup_map s.assetIds (List.mem_flatMap.mpr ⟨r, hr, ha⟩) (List.mem_flatMap.mpr ⟨r', hr', ha'⟩) h

end GitHub

namespace ReleasePublish

open Program

/-- The calls of a run and their answers, in order. -/
abbrev Log := List ((op : Op) × Reply op)

abbrev Scene := Site × Log

/-- Later in a run. -/
structure Since (s t : Scene) : Prop where
  hub : s.1.hub.Kept t.1.hub
  log : s.2 ⊆ t.2

theorem Since.refl (s : Scene) : Since s s := ⟨.refl _, fun _ h => h⟩

theorem Since.trans {s t u : Scene} (h : Since s t) (h' : Since t u) : Since s u :=
  ⟨h.hub.trans h'.hub, fun _ hc => h'.log (h.log hc)⟩

/-- What belongs together at the moment a release goes public: the bytes a build
of the candidate gives, the release, and its ZIP. -/
structure HangsTogether (lib : Libraries) (git : Git) (candidate : Candidate) (trial : Bool) (s : Scene)
    (id : Nat) (built : Bytes) (release : Release) (zip : Asset) : Prop where
  fresh : build lib git candidate.sha = .ok built
  listed : release ∈ s.1.hub.releases
  id : release.id = id
  tagName : release.tagName = candidate.tag
  target : isFullSha release.targetCommitish = true → release.targetCommitish = candidate.sha
  tag : s.1.hub.Resolves candidate.tag candidate.sha
  carried : zip ∈ release.assets
  name : zip.name = assetName
  digest : lib.sha256 zip.content = lib.sha256 built
  readBack : ⟨.raw candidate.repo zip.id, .ok zip.content⟩ ∈ s.2
  attested : ∃ a ∈ s.1.hub.attestations, a.repo = candidate.repo ∧ a.sourceDigest = candidate.sha ∧
    a.signerWorkflow = candidate.repo ++ "/" ++ signerWorkflow ∧ lib.sha256 built ∈ a.subjects
  verified : ∃ file given,
    ⟨.attestation file candidate.repo candidate.sha (candidate.repo ++ "/" ++ signerWorkflow),
      .ok (some given)⟩ ∈ s.2 ∧ some (lib.sha256 built) ∈ given.flatten
  main : s.1.hub.OnDefaultBranch candidate.sha ∨ trial = true ∧ candidate.version = "0.0.0"

section

variable (lib : Libraries) (git : Git) (candidate : Candidate) (trial : Bool)

/-- What a run may call, and when it may publish. -/
inductive Allowed (s : Scene) : Op → Prop
  | quiet {op : Op} (h : Quiet candidate.repo op) : Allowed s op
  | publish {id : Nat} {latest : Bool} {built : Bytes} {release : Release} {zip : Asset}
      (h : HangsTogether lib git candidate trial s id built release zip) :
      Allowed s (publishing candidate.repo id latest)

/-- Every call is allowed, and a result comes with a fact. -/
def Establishes {α : Type} (p : Script α) (s : Scene) (fact : Scene → α → Prop) : Prop :=
  p.Ensures (recording (answers candidate.repo)) (Allowed lib git candidate trial)
    (fun t out => ∀ a, out = .ok a → fact t a) s

end

section Rules

variable {lib : Libraries} {git : Git} {candidate : Candidate} {trial : Bool}
variable {α β : Type} {s t : Scene} {p : Script α} {fact : Scene → α → Prop}

theorem Allowed.since {op : Op} {reply : Reply op} (h : Allowed lib git candidate trial s op)
    (ha : recording (answers candidate.repo) s op reply t) : Since s t := by
  refine ⟨?_, ha.2 ▸ List.subset_append_left _ _⟩
  cases h with
  | quiet hq => exact hq.kept ha.1
  | publish _ => exact publishing_kept ha.1

theorem Establishes.done {a : α} (h : fact s a) : Establishes lib git candidate trial (.done a) s fact := by
  intro b hb
  cases hb
  exact h

theorem Establishes.fail (e : Halt) : Establishes lib git candidate trial (.fail e) s fact := by
  intro b hb
  cases hb

theorem Establishes.raised {x : Except Halt α} (h : ∀ a, x = .ok a → fact s a) :
    Establishes lib git candidate trial (raised x) s fact := by
  cases x with
  | ok a => exact .done (h a rfl)
  | error e => exact .fail e

theorem Establishes.mono {final : Scene → α → Prop} (h : Establishes lib git candidate trial p s fact)
    (hf : ∀ t a, fact t a → final t a) : Establishes lib git candidate trial p s final :=
  Ensures.mono h (fun t _ hp a ha => hf t a (hp a ha))

theorem Establishes.since (h : Establishes lib git candidate trial p s fact) :
    Establishes lib git candidate trial p s (fun t a => Since s t ∧ fact t a) := by
  have hs := Ensures.since Since.refl (fun _ _ _ => Since.trans) (fun _ _ _ _ => Allowed.since) h
  exact Ensures.mono hs (fun t _ ht a ha => ⟨ht.1, ht.2 a ha⟩)

theorem Establishes.bind {f : α → Script β} {final : Scene → β → Prop}
    (h : Establishes lib git candidate trial p s fact)
    (hf : ∀ t a, Since s t → fact t a → Establishes lib git candidate trial (f a) t final) :
    Establishes lib git candidate trial (p >>= f) s final := by
  refine Ensures.bind h.since (fun t a ht => hf t a (ht a rfl).1 (ht a rfl).2) ?_
  intro t e _ b hb
  cases hb

theorem Establishes.call {op : Op} {next : Reply op → Script α} (hq : Quiet candidate.repo op)
    (h : ∀ reply t, answers candidate.repo s.1 op reply t.1 → ⟨op, reply⟩ ∈ t.2 →
      Establishes lib git candidate trial (next reply) t fact) :
    Establishes lib git candidate trial (.call op next) s fact := by
  refine ⟨.quiet hq, fun reply t ha => h reply t ha.1 ?_⟩
  rw [ha.2]
  exact List.mem_append_right _ (List.mem_singleton_self _)

/-- A request that is allowed: an answer comes from a request carried out, no
answer from a 404 where that is let through. -/
theorem Establishes.api {gh : Gh} {method : Method} {endpoint : Endpoint} {payload : Payload} {allow404 : Bool}
    {given : Scene → Option (Answer method endpoint) → Prop}
    (hcall : Allowed lib git candidate trial s (.api method candidate.repo endpoint payload))
    (hok : ∀ answer t, s.1.hub.Replies s.1.files method endpoint payload (.ok answer) t.1.hub →
      t.1.files = s.1.files → given t answer)
    (hnone : allow404 = true → ∀ t, given t none) :
    Establishes lib git candidate trial (gh.api method candidate.repo endpoint payload allow404) s given := by
  unfold Gh.api
  split
  · exact .fail _
  · refine ⟨hcall, fun reply t ha => ?_⟩
    obtain ⟨hreplies, hfiles⟩ := ha.1 rfl
    cases reply with
    | ok answer => exact Establishes.done (hok answer t hreplies hfiles)
    | error fault =>
      cases fault with
      | unreadable => exact Establishes.fail _
      | exit message =>
        dsimp only
        split
        · rename_i hallowed
          exact Establishes.done (hnone (Bool.and_eq_true_iff.mp hallowed).1 t)
        · exact Establishes.fail _

theorem Establishes.catchFailure {handler : String → Script α}
    (h : Establishes lib git candidate trial p s fact)
    (hh : ∀ t message, Establishes lib git candidate trial (handler message) t fact) :
    Establishes lib git candidate trial (catchFailure p handler) s fact := by
  refine Ensures.tryCatch h (fun t a ha => ha) (fun t e _ => ?_)
  cases e with
  | failure message => exact hh t message
  | stop message => exact Establishes.fail (.stop message)
  | crash name => exact Establishes.fail (.crash name)

theorem Establishes.catchStop {handler : String → Script α}
    (h : Establishes lib git candidate trial p s fact)
    (hh : ∀ t message, Establishes lib git candidate trial (handler message) t fact) :
    Establishes lib git candidate trial (catchStop p handler) s fact := by
  refine Ensures.tryCatch h (fun t a ha => ha) (fun t e _ => ?_)
  cases e with
  | stop message => exact hh t message
  | failure message => exact Establishes.fail (.failure message)
  | crash name => exact Establishes.fail (.crash name)

end Rules

end ReleasePublish

end OnestiLock
