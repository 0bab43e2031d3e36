import OnestiLock.ReleaseBinding

/-! GitHub with no other writer, while calls may be cut off: before they take
effect, or after it with the answer lost. -/

namespace OnestiLock.ReleasePublish

open Program

/-- GitHub and the files, and how often an upload was carried out. -/
@[ext]
structure Flow where
  hub : GitHub
  files : String → Option Bytes
  uploads : Nat

def uploading : Method → Endpoint → Nat
  | .post, .assets _ _ => 1
  | _, _ => 0

/-- The refs of the script are on commits. -/
def OnCommit : (method : Method) → (endpoint : Endpoint) → Answer method endpoint → Prop
  | .post, .refs, object => object.type = "commit"
  | _, _, _ => True

section

variable (s : Flow) (method : Method) (endpoint : Endpoint) (payload : Payload)

structure Carried (answer : Answer method endpoint) (t : Flow) : Prop where
  served : s.hub.Serves s.files method endpoint payload answer t.hub
  commit : OnCommit method endpoint answer
  files : t.files = s.files
  uploads : t.uploads = s.uploads + uploading method endpoint

/-- What cannot be carried out is refused; what is not there is not found. -/
structure Refused (reply : Except Fault (Option (Answer method endpoint))) (t : Flow) : Prop where
  unchanged : t = s
  impossible : ∀ answer u, ¬ Carried s method endpoint payload answer u
  message : ∃ message, reply = .error (.exit message) ∧ (method = .get → isNotFound message = true)

structure CutOff (reply : Except Fault (Option (Answer method endpoint))) (t : Flow) : Prop where
  lost : ∃ fault, reply = .error fault ∧ ∀ message, fault = .exit message → isNotFound message = false
  effect : t = s ∨ method ≠ .get ∧ ∃ answer, Carried s method endpoint payload answer t

end

/-- What `gh attestation verify` tells of a file, or the text it exits with. -/
abbrev Attest := Option Bytes → String → String → String → Except String (Option (List AttestationAnswer))

/-- How a repository's GitHub answers, and the machine the script runs on. -/
def attended (repo : String) (attest : Attest) (cut : Prop) : Surroundings Op Reply Flow := fun s op =>
  match op with
  | .api method of endpoint payload => fun reply t => of = repo →
    (∃ answer, reply = .ok (some answer) ∧ Carried s method endpoint payload answer t) ∨
      Refused s method endpoint payload reply t ∨ cut ∧ CutOff s method endpoint payload reply t
  | .raw of id => fun reply t => t = s ∧ (of = repo →
    (∃ r ∈ s.hub.releases, ∃ asset ∈ r.assets, asset.id = id ∧ reply = .ok asset.content) ∨
      (∃ message, reply = .error message) ∧
        (cut ∨ ∀ r ∈ s.hub.releases, ∀ asset ∈ r.assets, asset.id ≠ id))
  | .attestation zip of source signer => fun reply t => t = s ∧
    (reply = (attest (s.files zip) of source signer).mapError .exit ∨ cut ∧ ∃ fault, reply = .error fault)
  | .readFile file => fun reply t => t = s ∧ reply = (s.files file).elim (.error "FileNotFoundError") .ok
  | .writeFile file content => fun reply t =>
    reply = .ok () ∧ t = { s with files := Function.update s.files file (some content) }
  | .writeOutcome _ _ => fun reply t => reply = .ok () ∧ t = s

theorem attended_answers (repo : String) (attest : Attest) (cut : Prop) (s : Flow) (op : Op) :
    ∃ reply t, attended repo attest cut s op reply t := by
  cases op with
  | api method of endpoint payload =>
    by_cases h : ∃ answer t, Carried s method endpoint payload answer t
    · obtain ⟨answer, t, hcarried⟩ := h
      exact ⟨.ok (some answer), t, fun _ => .inl ⟨answer, rfl, hcarried⟩⟩
    · have himpossible : ∀ answer u, ¬ Carried s method endpoint payload answer u :=
        fun answer u hcarried => h ⟨answer, u, hcarried⟩
      have hnotFound : isNotFound "HTTP 404" = true := by decide
      exact ⟨.error (.exit "HTTP 404"), s, fun _ => .inr (.inl ⟨rfl, himpossible, _, rfl, fun _ => hnotFound⟩)⟩
  | raw of id =>
    by_cases h : ∃ r ∈ s.hub.releases, ∃ asset ∈ r.assets, asset.id = id
    · obtain ⟨r, hr, asset, ha, hid⟩ := h
      exact ⟨.ok asset.content, s, rfl, fun _ => .inl ⟨r, hr, asset, ha, hid, rfl⟩⟩
    · have hnone : ∀ r ∈ s.hub.releases, ∀ asset ∈ r.assets, asset.id ≠ id :=
        fun r hr asset ha hid => h ⟨r, hr, asset, ha, hid⟩
      exact ⟨.error "", s, rfl, fun _ => .inr ⟨⟨"", rfl⟩, .inr hnone⟩⟩
  | attestation zip of source signer => exact ⟨_, s, rfl, .inl rfl⟩
  | readFile file => exact ⟨_, s, rfl, rfl⟩
  | writeFile file content => exact ⟨.ok (), _, rfl, rfl⟩
  | writeOutcome outcome candidate => exact ⟨.ok (), s, rfl, rfl⟩

/-! Reads leave everything as it is. -/

section

variable {repo : String} {attest : Attest} {cut : Prop} {α : Type} {s : Flow}

theorem Carried.get {endpoint : Endpoint} {payload : Payload} {answer : Answer .get endpoint} {t : Flow}
    (h : Carried s .get endpoint payload answer t) :
    t = s ∧ s.hub.Serves s.files .get endpoint payload answer s.hub := by
  have hhub : t.hub = s.hub := GitHub.serves_get h.served
  have hserved := h.served
  rw [hhub] at hserved
  exact ⟨Flow.ext hhub h.files h.uploads, hserved⟩

theorem carried_get {endpoint : Endpoint} {payload : Payload} {answer : Answer .get endpoint}
    (h : s.hub.Serves s.files .get endpoint payload answer s.hub) : Carried s .get endpoint payload answer s :=
  ⟨h, by cases endpoint <;> trivial, rfl, rfl⟩

/-- A part of the script that only reads: it gets through if and only if the
condition holds, unless a call is cut off. -/
abbrev Reads (repo : String) (attest : Attest) (cut : Prop) (p : Script α) (cond : Prop) (fact : α → Prop)
    (s : Flow) : Prop :=
  p.Ensures (attended repo attest cut) (fun t _ => t = s) (fun t out => t = s ∧
    match out with
    | .ok a => cond ∧ fact a
    | .error _ => cut ∨ ¬ cond) s

theorem reads_done {cond : Prop} {fact : α → Prop} {a : α} (hc : cond) (hf : fact a) :
    Reads repo attest cut (.done a) cond fact s :=
  ⟨rfl, hc, hf⟩

theorem reads_fail {cond : Prop} {fact : α → Prop} {e : Halt} (hc : ¬ cond) :
    Reads repo attest cut (.fail e : Script α) cond fact s :=
  ⟨rfl, .inr hc⟩

theorem reads_raised {x : Except Halt α} : Reads repo attest cut (raised x) (∃ a, x = .ok a) (fun a => x = .ok a) s := by
  cases x with
  | ok a => exact reads_done ⟨a, rfl⟩ rfl
  | error e =>
    refine reads_fail ?_
    rintro ⟨a, ⟨⟩⟩

theorem Reads.bind {β : Type} {p : Script α} {f : α → Script β} {first cond : Prop} {fact : α → Prop}
    {final : β → Prop} (h : Reads repo attest cut p first fact s) (hfirst : cond → first)
    (hf : ∀ a, first → fact a → Reads repo attest cut (f a) cond final s) :
    Reads repo attest cut (p >>= f) cond final s := by
  refine Ensures.bind h ?_ ?_
  · rintro t a ⟨rfl, hc, ha⟩
    exact hf a hc ha
  · rintro t e ⟨rfl, he⟩
    exact ⟨rfl, he.imp id (fun hn hc => hn (hfirst hc))⟩

theorem reads_get {gh : Gh} (endpoint : Endpoint) (payload : Payload) (allow404 : Bool) :
    (gh.api .get repo endpoint payload allow404).Ensures (attended repo attest cut) (fun t _ => t = s)
      (fun t out => t = s ∧
        match out with
        | .ok (some answer) => s.hub.Serves s.files .get endpoint payload answer s.hub
        | .ok none => allow404 = true ∧ ∀ answer, ¬ s.hub.Serves s.files .get endpoint payload answer s.hub
        | .error _ => cut ∨ allow404 = false ∧ ∀ answer, ¬ s.hub.Serves s.files .get endpoint payload answer s.hub)
      s := by
  unfold Gh.api
  rw [if_neg (by simp)]
  refine ⟨rfl, fun reply t h => ?_⟩
  rcases h rfl with ⟨answer, rfl, hcarried⟩ | ⟨rfl, himpossible, message, rfl, hmessage⟩ | ⟨hcut, hlost, heffect⟩
  · obtain ⟨rfl, hserved⟩ := hcarried.get
    exact ⟨rfl, hserved⟩
  · have hnone : ∀ answer, ¬ t.hub.Serves t.files .get endpoint payload answer t.hub :=
      fun answer hserved => himpossible answer t (carried_get hserved)
    dsimp only
    rw [hmessage rfl]
    cases allow404 with
    | true => exact ⟨rfl, rfl, hnone⟩
    | false => exact ⟨rfl, .inr ⟨rfl, hnone⟩⟩
  · obtain rfl : t = s := by
      rcases heffect with h | ⟨hne, -⟩
      · exact h
      · exact absurd rfl hne
    obtain ⟨fault, rfl, hmessage⟩ := hlost
    cases fault with
    | unreadable => exact ⟨rfl, .inl hcut⟩
    | exit message =>
      dsimp only
      rw [hmessage message rfl, Bool.and_false]
      exact ⟨rfl, .inl hcut⟩

end

end OnestiLock.ReleasePublish
