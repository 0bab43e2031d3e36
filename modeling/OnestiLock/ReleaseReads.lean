import OnestiLock.ReleaseStages

/-! When the parts of the script that only read get through. -/

namespace OnestiLock.ReleasePublish

open Program

/-! Version numbers. -/

/-- No space, sign or separator is a digit. -/
structure DecimalLaws (lib : Libraries) : Prop where
  spaces : ∀ c, (lib.decimal c).isSome = true → c.isWhitespace = false
  signs : ∀ c ∈ ['-', '+', '_', '.'], lib.decimal c = none

section

variable {lib : Libraries}

theorem isDecimal_iff {text : List Char} :
    isDecimal lib text = true ↔ text ≠ [] ∧ ∀ c ∈ text, (lib.decimal c).isSome = true := by
  simp [isDecimal]

theorem DecimalLaws.not_mem (laws : DecimalLaws lib) {text : List Char} (h : isDecimal lib text = true) {c : Char}
    (hc : c ∈ ['-', '+', '_', '.']) : c ∉ text := by
  intro hm
  have hsome := (isDecimal_iff.mp h).2 c hm
  rw [laws.signs c hc] at hsome
  cases hsome

theorem int_decimal (laws : DecimalLaws lib) {text spaces : List Char} (h : isDecimal lib text = true)
    (hs : ∀ c ∈ spaces, c.isWhitespace = true) : ∃ n, int lib (text ++ spaces) = .ok n := by
  obtain ⟨hne, hall⟩ := isDecimal_iff.mp h
  have hwhite : ∀ c ∈ text, c.isWhitespace = false := fun c hc => laws.spaces c (hall c hc)
  have hfront : (text ++ spaces).dropWhile Char.isWhitespace = text ++ spaces := by
    cases text with
    | nil => exact absurd rfl hne
    | cons c rest => exact List.dropWhile_cons_of_neg (by simp [hwhite c List.mem_cons_self])
  have hlast : text.rdropWhile Char.isWhitespace = text :=
    List.rdropWhile_eq_self_iff.mpr (fun hl => by simp [hwhite _ (List.getLast_mem hl)])
  have hback : (text ++ spaces).rdropWhile Char.isWhitespace = text := by
    rw [List.rdropWhile, List.reverse_append, List.dropWhile_append_of_pos (by simpa using hs)]
    exact hlast
  have hsplit : text.splitOn '_' = [text] := List.splitOn_eq_singleton (laws.not_mem h (by simp))
  have hvalue : ∀ sign : Int, (if (text.splitOn '_').all (isDecimal lib) = true then
      (.ok (sign * digitsValue lib (text.filter (· ≠ '_'))) : Except Halt Int) else .error (.crash "ValueError")) =
      .ok (sign * digitsValue lib (text.filter (· ≠ '_'))) := by
    intro sign
    rw [hsplit, if_pos (by simp [h])]
  unfold int
  rw [hfront, hback]
  dsimp only
  split
  · exact absurd List.mem_cons_self (laws.not_mem h (c := '-') (by simp))
  · exact absurd List.mem_cons_self (laws.not_mem h (c := '+') (by simp))
  · exact ⟨_, hvalue 1⟩

theorem chomp_append (text : List Char) :
    ∃ spaces, text = chomp text ++ spaces ∧ ∀ c ∈ spaces, c.isWhitespace = true := by
  unfold chomp removeSuffix
  split
  · rename_i h
    obtain ⟨front, rfl⟩ := List.isSuffixOf_iff_suffix.mp h
    refine ⟨['\n'], by simp, fun c hc => ?_⟩
    rw [List.mem_singleton.mp hc]
    decide
  · exact ⟨[], by simp, by simp⟩

theorem versionNumbers_ok (laws : DecimalLaws lib) {version : String} (h : isVersion lib version = true) :
    ∃ numbers, versionNumbers lib version = .ok numbers := by
  obtain ⟨spaces, htext, hspaces⟩ := chomp_append version.toList
  unfold isVersion at h
  split at h
  · rename_i major minor patch hsplit
    rw [Bool.and_eq_true, Bool.and_eq_true] at h
    obtain ⟨⟨hmajor, hminor⟩, hpatch⟩ := h
    have hjoined : ['.'].intercalate ((chomp version.toList).splitOn '.') = chomp version.toList :=
      List.intercalate_splitOn '.'
    rw [hsplit] at hjoined
    have hversion : version.toList = major ++ '.' :: (minor ++ '.' :: (patch ++ spaces)) := by
      rw [htext, ← hjoined]
      simp [List.intercalate]
    have hdot : ∀ {text}, isDecimal lib text = true → '.' ∉ text := fun ht => laws.not_mem ht (by simp)
    have hend : '.' ∉ patch ++ spaces := by
      intro hm
      rcases List.mem_append.mp hm with hp | hs
      · exact hdot hpatch hp
      · exact absurd (hspaces '.' hs) (by decide)
    have hplain : ∀ {text}, isDecimal lib text = true → ∃ n, int lib text = .ok n := by
      intro text ht
      have hn : ∃ n, int lib (text ++ []) = .ok n := int_decimal laws ht (by simp)
      rw [List.append_nil] at hn
      exact hn
    obtain ⟨a, ha⟩ := hplain hmajor
    obtain ⟨b, hb⟩ := hplain hminor
    obtain ⟨c, hc⟩ := int_decimal laws hpatch hspaces
    refine ⟨[a, b, c], ?_⟩
    unfold versionNumbers
    rw [hversion, List.splitOn_append_cons_self_of_not_mem (hdot hmajor),
      List.splitOn_append_cons_self_of_not_mem (hdot hminor), List.splitOn_eq_singleton hend]
    simp [ha, hb, hc]
  · cases h

end

section

variable {lib : Libraries} {gh : Gh} {candidate : Candidate} {attest : Attest} {cut : Prop} {s : Flow}

def Untagged (candidate : Candidate) (s : Flow) : Prop := s.hub.refs ("refs/tags/" ++ candidate.tag) = none

def Tagged (candidate : Candidate) (s : Flow) : Prop :=
  s.hub.refs ("refs/tags/" ++ candidate.tag) = some ⟨"commit", candidate.sha⟩

theorem ref_tags (tag : String) : "refs/" ++ ("tags/" ++ tag) = "refs/tags/" ++ tag := by
  rw [← String.append_assoc]
  rfl

theorem findRelease_reads {l : List Release} (h : s.hub.named candidate.tag = l) (hl : l.length ≤ 1) :
    Reads candidate.repo attest cut (findRelease gh candidate) True
      (fun release => release = l.head?.map Release.answer) s := by
  refine (reads_get .releases .empty false).bind ?_ ?_
  · rintro t (answer | answer) ⟨rfl, hserved⟩
    · exact absurd hserved.1 (by decide)
    · obtain ⟨⟨listed, hperm, rfl⟩, -⟩ := hserved
      have hfilter : (listed.map Release.answer).filter (fun r => r.tagName = some candidate.tag) =
          (listed.filter (fun r => r.tagName = candidate.tag)).map Release.answer := by
        rw [List.filter_map]
        refine congrArg _ (List.filter_congr (fun r _ => ?_))
        simp [Release.answer]
      have hnamed : (listed.filter (fun r => r.tagName = candidate.tag)).Perm l := by
        rw [← h]
        exact hperm.filter _
      dsimp only
      rw [Option.getD_some, hfilter]
      rcases l with _ | ⟨r, _ | ⟨other, rest⟩⟩
      · rw [hnamed.eq_nil]
        exact reads_done trivial rfl
      · rw [List.perm_singleton.mp hnamed]
        exact reads_done trivial rfl
      · simp at hl
  · rintro t e ⟨rfl, he⟩
    refine ⟨rfl, .inl ?_⟩
    rcases he with hcut | ⟨-, hnone⟩
    · exact hcut
    · exact absurd ⟨⟨_, .refl _, rfl⟩, rfl⟩ (hnone _)

/-- The commit may be released from. -/
def Releasable (candidate : Candidate) (trial : Bool) (hub : GitHub) : Prop :=
  trial = true ∧ candidate.version = trialVersion ∨ trial = false ∧ hub.OnDefaultBranch candidate.sha

theorem requireMainBranch_reads (trial : Bool) :
    Reads candidate.repo attest cut (requireMainBranch gh candidate trial)
      (Releasable candidate trial s.hub) (fun _ => True) s := by
  unfold requireMainBranch
  cases trial with
  | true =>
    rw [if_pos rfl]
    split
    · rename_i hversion
      refine reads_fail ?_
      rintro (⟨-, h⟩ | ⟨⟨⟩, -⟩)
      exact hversion h
    · rename_i hversion
      exact reads_done (.inl ⟨rfl, not_not.mp hversion⟩) trivial
  | false =>
    rw [if_neg (by decide)]
    have hbranch : Reads candidate.repo attest cut (gh.api .get candidate.repo .repository .empty false) True
        (fun repository => repository = some (some s.hub.defaultBranch)) s := by
      refine Ensures.mono (reads_get .repository .empty false) ?_
      rintro t (e | repository | branch) ⟨rfl, h⟩
      · refine ⟨rfl, .inl ?_⟩
        rcases h with hcut | ⟨-, hnone⟩
        · exact hcut
        · exact absurd ⟨rfl, rfl⟩ (hnone _)
      · exact absurd h.1 (by decide)
      · exact ⟨rfl, trivial, congrArg some h.1⟩
    refine hbranch.bind (fun _ => trivial) ?_
    rintro repository - rfl
    have hmain : (nonempty (((some (some s.hub.defaultBranch)) : Option (Option String)).getD none)).getD "main" =
        s.hub.defaultBranch := by
      rw [Option.getD_some, nonempty, Option.filter_some, if_pos (by simpa using s.hub.defaultBranch_ne)]
      rfl
    dsimp only
    rw [hmain]
    refine (reads_get _ .empty true).bind ?_ ?_
    · rintro t (answer | status) ⟨rfl, h⟩
      · refine reads_fail ?_
        rintro (⟨⟨⟩, -⟩ | ⟨-, hon⟩)
        rcases hon with hon | hon
        · exact h.2 (some "identical") ⟨by rw [hon]; rfl, rfl⟩
        · exact h.2 (some "behind") ⟨by rw [hon]; rfl, rfl⟩
      · obtain ⟨text, htext, rfl⟩ := Option.map_eq_some_iff.mp h.1
        dsimp only
        split
        · rename_i hstatus
          refine reads_fail ?_
          rintro (⟨⟨⟩, -⟩ | ⟨-, hon⟩)
          unfold GitHub.OnDefaultBranch at hon
          rw [htext] at hon
          rcases hon with hon | hon <;> obtain rfl := Option.some.inj hon <;> exact hstatus (by decide)
        · rename_i hstatus
          refine reads_done (.inr ⟨rfl, ?_⟩) trivial
          have hne : text ≠ "" := by
            rintro rfl
            exact hstatus (by decide)
          rw [nonempty, Option.filter_some, if_pos (by simpa using hne), Option.getD_some, not_not,
            List.mem_pair] at hstatus
          unfold GitHub.OnDefaultBranch
          rw [htext]
          exact hstatus.imp (congrArg some) (congrArg some)
    · rintro t e ⟨rfl, he⟩
      refine ⟨rfl, .inl ?_⟩
      rcases he with hcut | ⟨hallowed, -⟩
      · exact hcut
      · cases hallowed

/-- An attestation of this file covers the digest. -/
def Verified (attest : Attest) (candidate : Candidate) (content : Option Bytes) (digest : String) : Prop :=
  ∃ answers, attest content candidate.repo candidate.sha (candidate.repo ++ "/" ++ signerWorkflow) =
    .ok (some answers) ∧ some digest ∈ answers.flatten

theorem verifyAttestation_following (zip digest : String) :
    (verifyAttestation candidate zip digest).Ensures (attended candidate.repo attest cut) (fun t _ => t = s)
      (fun t out => t = s ∧
        match out with
        | .ok _ => Verified attest candidate (s.files zip) digest
        | .error e => cut ∨ ¬ Verified attest candidate (s.files zip) digest ∧ ∃ message, e = .stop message) s := by
  refine ⟨rfl, fun reply t h => ?_⟩
  obtain ⟨rfl, hreply | ⟨hcut, fault, rfl⟩⟩ := h
  · generalize hgiven : attest (t.files zip) candidate.repo candidate.sha
      (candidate.repo ++ "/" ++ signerWorkflow) = given at hreply
    have hnone : (∀ answers, given = .ok (some answers) → some digest ∉ answers.flatten) →
        ¬ Verified attest candidate (t.files zip) digest := by
      rintro hall ⟨answers, hattest, hmem⟩
      exact hall answers (hgiven.symm.trans hattest) hmem
    subst hreply
    cases given with
    | error message => exact ⟨rfl, .inr ⟨hnone (by simp), _, rfl⟩⟩
    | ok answer =>
      cases answer with
      | none => exact ⟨rfl, .inr ⟨hnone (by simp), _, rfl⟩⟩
      | some answers =>
        cases answers with
        | nil => exact ⟨rfl, .inr ⟨hnone (by simp), _, rfl⟩⟩
        | cons first rest =>
          show Ensures _ _ (if some digest ∉ (first :: rest).flatten then _ else _) _ t
          split
          · rename_i hmem
            refine ⟨rfl, .inr ⟨hnone ?_, _, rfl⟩⟩
            rintro answers ⟨⟩
            exact hmem
          · rename_i hmem
            exact ⟨rfl, first :: rest, hgiven, not_not.mp hmem⟩
  · cases fault <;> exact ⟨rfl, .inl hcut⟩

theorem verifyAttestation_reads (zip digest : String) :
    Reads candidate.repo attest cut (verifyAttestation candidate zip digest)
      (Verified attest candidate (s.files zip) digest) (fun _ => True) s := by
  refine (verifyAttestation_following zip digest).mono ?_
  rintro t (e | u) ⟨rfl, h⟩
  · exact ⟨rfl, h.imp id And.left⟩
  · exact ⟨rfl, h, trivial⟩

theorem shouldBeLatest_reads (laws : DecimalLaws lib) (hversion : isVersion lib candidate.version = true) :
    Reads candidate.repo attest cut (shouldBeLatest lib gh candidate) True (fun _ => True) s := by
  unfold shouldBeLatest
  split
  · exact reads_done trivial trivial
  · refine (reads_get .latest .empty true).bind ?_ ?_
    · rintro t answer ⟨rfl, -⟩
      cases answer with
      | none => exact reads_done trivial trivial
      | some latest =>
        dsimp only
        generalize String.ofList ((latest.tagName.getD "").toList.dropWhile (· = 'v')) = current
        split
        · rename_i hcurrent
          refine reads_raised.bind (fun _ => versionNumbers_ok laws hversion) (fun ours _ _ => ?_)
          refine reads_raised.bind (fun _ => versionNumbers_ok laws hcurrent) (fun theirs _ _ => ?_)
          exact reads_done trivial trivial
        · exact reads_done trivial trivial
    · rintro t e ⟨rfl, he⟩
      refine ⟨rfl, .inl ?_⟩
      rcases he with hcut | ⟨hallowed, -⟩
      · exact hcut
      · cases hallowed

theorem writeOutcome_reads (outcome : String) :
    Reads candidate.repo attest cut (writeOutcome outcome candidate) True (fun _ => True) s := by
  refine ⟨rfl, fun reply t h => ?_⟩
  obtain ⟨rfl, rfl⟩ := h
  exact ⟨rfl, trivial, trivial⟩

end

end OnestiLock.ReleasePublish
