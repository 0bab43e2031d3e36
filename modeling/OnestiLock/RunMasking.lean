import Mathlib.Data.List.Infix
import Mathlib.Data.List.TakeWhile

/-! Replacing what a pattern matches in a list, from left to right, and the
case where it matches every long enough run of symbols with one property. -/

namespace RunMasking

variable {α : Type}

/-- `matchLength` is how much the pattern takes at the front, 0 for no match.
The first argument is what is left of the match before. -/
def replaceAll (matchLength : List α → Nat) (mask : List α) : Nat → List α → List α
  | _, [] => []
  | left + 1, _ :: rest => replaceAll matchLength mask left rest
  | 0, c :: rest =>
    match matchLength (c :: rest) with
    | 0 => c :: replaceAll matchLength mask 0 rest
    | taken + 1 => mask ++ replaceAll matchLength mask taken rest

/-- The greedy match of a run of at least `n` symbols with `p`. -/
def runLength (p : α → Bool) (n : Nat) (l : List α) : Nat :=
  if n ≤ (l.takeWhile p).length then (l.takeWhile p).length else 0

def maskRuns (p : α → Bool) (n : Nat) (mask l : List α) : List α := replaceAll (runLength p n) mask 0 l

def NoLongRun (p : α → Bool) (n : Nat) (l : List α) : Prop :=
  ∀ w, w <:+: l → (∀ c ∈ w, p c = true) → w.length < n

variable {p : α → Bool} {n : Nat} {mask l : List α}

theorem replaceAll_drop (matchLength : List α → Nat) (left : Nat) (l : List α) :
    replaceAll matchLength mask left l = replaceAll matchLength mask 0 (l.drop left) := by
  induction l generalizing left with
  | nil =>
    cases left with
    | zero => rfl
    | succ left => rfl
  | cons c rest ih =>
    cases left with
    | zero => rfl
    | succ left => exact ih left

theorem maskRuns_long (hn : 0 < n) (hrun : n ≤ (l.takeWhile p).length) :
    maskRuns p n mask l = mask ++ maskRuns p n mask (l.dropWhile p) := by
  cases l with
  | nil =>
    have hzero : n ≤ 0 := by simpa using hrun
    omega
  | cons c rest =>
    have hlen : runLength p n (c :: rest) = ((c :: rest).takeWhile p).length := if_pos hrun
    obtain ⟨taken, htaken⟩ : ∃ taken, ((c :: rest).takeWhile p).length = taken + 1 :=
      ⟨((c :: rest).takeWhile p).length - 1, by omega⟩
    have hdrop : rest.drop taken = (c :: rest).dropWhile p := by
      have hsplit := List.takeWhile_append_dropWhile (p := p) (l := c :: rest)
      have hd : (c :: rest).drop (taken + 1) = (c :: rest).dropWhile p := by
        rw [← htaken]
        nth_rewrite 2 [← hsplit]
        exact List.drop_left
      simpa using hd
    unfold maskRuns
    rw [replaceAll, hlen, htaken]
    simp only
    rw [replaceAll_drop, hdrop]

theorem maskRuns_cons {c : α} {rest : List α} (hrun : ((c :: rest).takeWhile p).length < n) :
    maskRuns p n mask (c :: rest) = c :: maskRuns p n mask rest := by
  have hlen : runLength p n (c :: rest) = 0 := if_neg (by omega)
  unfold maskRuns
  rw [replaceAll, hlen]

namespace NoLongRun

theorem sublist_infix {k : List α} (h : NoLongRun p n l) (hk : k <:+: l) : NoLongRun p n k :=
  fun w hw hp => h w (hw.trans hk) hp

theorem takeWhile_length (h : NoLongRun p n l) : (l.takeWhile p).length < n :=
  h _ (List.takeWhile_prefix p).isInfix (fun c hc => by simpa using List.mem_takeWhile_imp hc)

theorem tail {c : α} (h : NoLongRun p n (c :: l)) : NoLongRun p n l :=
  h.sublist_infix (List.suffix_cons c l).isInfix

/-- A symbol without the property keeps the runs around it apart. -/
theorem append_cons {k : List α} {c : α} (hk : NoLongRun p n k) (hc : p c = false)
    (hl : NoLongRun p n l) : NoLongRun p n (k ++ c :: l) := by
  intro w hw hp
  have hcw : c ∉ w := by
    intro hmem
    rw [hp c hmem] at hc
    cases hc
  obtain ⟨before, after, heq⟩ := hw
  rw [List.append_assoc] at heq
  rcases List.append_eq_append_iff.mp heq with ⟨gap, hgap, hrest⟩ | ⟨gap, hgap, hrest⟩
  · -- `w` starts inside `k`, and then ends there too.
    rcases List.append_eq_append_iff.mp hrest with ⟨beyond, hbeyond, _⟩ | ⟨beyond, hbeyond, htail⟩
    · refine hk w ⟨before, beyond, ?_⟩ hp
      rw [hgap, hbeyond, List.append_assoc]
    · cases beyond with
      | nil =>
        refine hk w ⟨before, [], ?_⟩ hp
        rw [hgap, hbeyond]
        simp
      | cons d beyond =>
        have hd : c = d := (List.cons.inj htail).1
        exact absurd (by rw [hbeyond, hd]; simp) hcw
  · cases gap with
    | nil =>
      cases w with
      | nil => exact hk [] List.nil_infix hp
      | cons d w =>
        have hd : c = d := (List.cons.inj hrest).1
        exact absurd (by rw [hd]; simp) hcw
    | cons d gap =>
      have hl' : l = gap ++ (w ++ after) := (List.cons.inj hrest).2
      refine hl w ⟨gap, after, ?_⟩ hp
      rw [hl', List.append_assoc]

theorem append_mask {k : List α} (hk : NoLongRun p n k) (hmask : ∀ c ∈ mask, p c = false)
    (hne : mask ≠ []) (hl : NoLongRun p n l) : NoLongRun p n (k ++ (mask ++ l)) := by
  induction mask generalizing k with
  | nil => exact absurd rfl hne
  | cons c mask ih =>
    have hc := hmask c List.mem_cons_self
    have hrest := fun d hd => hmask d (List.mem_cons_of_mem c hd)
    cases mask with
    | nil => exact hk.append_cons hc hl
    | cons d mask =>
      have hnil : NoLongRun p n [] := hl.sublist_infix List.nil_infix
      have hkc : NoLongRun p n (k ++ [c]) := hk.append_cons hc hnil
      have hall := ih hkc hrest (by simp)
      simpa using hall

end NoLongRun

theorem maskRuns_of_noLongRun (h : NoLongRun p n l) : maskRuns p n mask l = l := by
  induction l with
  | nil => rfl
  | cons c rest ih => rw [maskRuns_cons h.takeWhile_length, ih h.tail]

/-- Up to a symbol without the property, short runs stay as they are. -/
theorem maskRuns_append_cons {k : List α} {c : α} (hk : NoLongRun p n (k ++ [c])) (hc : p c = false) :
    maskRuns p n mask (k ++ c :: l) = k ++ c :: maskRuns p n mask l := by
  induction k with
  | nil =>
    have hrun : ((c :: l).takeWhile p).length < n := by
      have hone := hk.takeWhile_length
      simp only [List.nil_append, List.takeWhile_cons, hc] at hone
      simpa [List.takeWhile_cons, hc] using hone
    rw [List.nil_append, maskRuns_cons hrun, List.nil_append]
  | cons d k ih =>
    have hshort : (d :: (k ++ c :: l)).takeWhile p = (d :: (k ++ [c])).takeWhile p := by
      have hmiss : ¬ ((d :: k) ++ [c]).takeWhile p = (d :: k) ++ [c] := by
        intro hall
        have hpc := List.takeWhile_eq_self_iff.mp hall c (by simp)
        rw [hc] at hpc
        cases hpc
      have hlen : ¬ (((d :: k) ++ [c]).takeWhile p).length = ((d :: k) ++ [c]).length := by
        intro heq
        exact hmiss ((List.takeWhile_prefix p).eq_of_length heq)
      have happ : ((d :: k) ++ [c]) ++ l = d :: (k ++ c :: l) := by simp
      rw [← happ, List.takeWhile_append, if_neg hlen]
      rfl
    have hrun : ((d :: (k ++ c :: l)).takeWhile p).length < n := by
      rw [hshort]
      exact hk.takeWhile_length
    have htail := ih hk.tail
    rw [List.cons_append, maskRuns_cons hrun, htail, List.cons_append]

/-! Cutting a list into its long runs and what stands between them. -/

/-- The list that starts with `kept`, each run followed by what is kept after it. -/
def weave : List α → List (List α × List α) → List α
  | kept, [] => kept
  | kept, (run, next) :: rest => kept ++ (run ++ weave next rest)

/-- The runs are long and as long as they can be, what is kept has no long run. -/
inductive IsCut (p : α → Bool) (n : Nat) : List α → List (List α × List α) → Prop
  | last {kept : List α} (hkept : NoLongRun p n kept) : IsCut p n kept []
  | run {kept run next : List α} {rest : List (List α × List α)} (hkept : NoLongRun p n kept)
      (hbefore : ∀ c ∈ kept.getLast?, p c = false) (hrun : ∀ c ∈ run, p c = true)
      (hlong : n ≤ run.length) (hafter : ∀ c ∈ (weave next rest).head?, p c = false)
      (hrest : IsCut p n next rest) : IsCut p n kept ((run, next) :: rest)

theorem maskRuns_append {kept : List α} (hkept : NoLongRun p n kept)
    (hbefore : ∀ c ∈ kept.getLast?, p c = false) :
    maskRuns p n mask (kept ++ l) = kept ++ maskRuns p n mask l := by
  rcases List.eq_nil_or_concat kept with hnil | ⟨k, c, hlast⟩
  · rw [hnil]
    rfl
  · have hc : p c = false := hbefore c (by simp [hlast])
    have hk : kept = k ++ [c] := by simpa using hlast
    subst hk
    rw [List.append_assoc, List.append_assoc]
    exact maskRuns_append_cons hkept hc

theorem maskRuns_run {run : List α} (hn : 0 < n) (hrun : ∀ c ∈ run, p c = true) (hlong : n ≤ run.length)
    (hafter : ∀ c ∈ l.head?, p c = false) :
    maskRuns p n mask (run ++ l) = mask ++ maskRuns p n mask l := by
  have hl : l.takeWhile p = [] ∧ l.dropWhile p = l := by
    cases l with
    | nil => exact ⟨rfl, rfl⟩
    | cons c l =>
      have hc : p c = false := hafter c rfl
      exact ⟨by simp [hc], by simp [hc]⟩
  have htake : (run ++ l).takeWhile p = run := by
    rw [List.takeWhile_append_of_pos hrun, hl.1, List.append_nil]
  have hdrop : (run ++ l).dropWhile p = l := by
    rw [List.dropWhile_append_of_pos hrun, hl.2]
  rw [maskRuns_long hn (by rw [htake]; exact hlong), hdrop]

/-- Only the runs change, each into the mask. -/
theorem IsCut.maskRuns (hn : 0 < n) {kept : List α} {cuts : List (List α × List α)}
    (h : IsCut p n kept cuts) :
    RunMasking.maskRuns p n mask (weave kept cuts) =
      weave kept (cuts.map (fun cut => (mask, cut.2))) := by
  induction h with
  | last hkept => exact maskRuns_of_noLongRun hkept
  | run hkept hbefore hrun hlong hafter hrest ih =>
    rw [weave, maskRuns_append hkept hbefore, maskRuns_run hn hrun hlong hafter, ih]
    rfl

theorem IsCut.noLongRun (hmask : ∀ c ∈ mask, p c = false) (hne : mask ≠ []) {kept : List α}
    {cuts : List (List α × List α)} (h : IsCut p n kept cuts) :
    NoLongRun p n (weave kept (cuts.map (fun cut => (mask, cut.2)))) := by
  induction h with
  | last hkept => exact hkept
  | run hkept hbefore hrun hlong hafter hrest ih => exact hkept.append_mask hmask hne ih

theorem exists_isCut (hn : 0 < n) (l : List α) : ∃ kept cuts, IsCut p n kept cuts ∧ weave kept cuts = l := by
  induction hsize : l.length using Nat.strong_induction_on generalizing l with
  | _ size ih =>
    have hsplit := List.takeWhile_append_dropWhile (p := p) (l := l)
    have hrun : ∀ c ∈ l.takeWhile p, p c = true := fun c hc => by simpa using List.mem_takeWhile_imp hc
    have hnil : NoLongRun p n [] := by
      intro w hw _
      have hw0 : w = [] := List.infix_nil.mp hw
      rw [hw0]
      exact hn
    have hlen : (l.takeWhile p).length + (l.dropWhile p).length = size := by
      rw [← List.length_append, hsplit, hsize]
    by_cases hlong : n ≤ (l.takeWhile p).length
    · have hless : (l.dropWhile p).length < size := by omega
      obtain ⟨kept, cuts, hcut, hweave⟩ := ih _ hless _ rfl
      have hafter : ∀ c ∈ (weave kept cuts).head?, p c = false := by
        intro c hc
        rw [hweave] at hc
        have hhead := List.head?_dropWhile_not p l
        rw [Option.mem_def.mp hc] at hhead
        simpa using hhead
      refine ⟨[], (l.takeWhile p, kept) :: cuts, .run hnil (by simp) hrun hlong hafter hcut, ?_⟩
      rw [weave, hweave, List.nil_append, hsplit]
    · have hshort : NoLongRun p n (l.takeWhile p) := by
        intro w hw _
        have hle := hw.length_le
        omega
      cases hdrop : l.dropWhile p with
      | nil =>
        refine ⟨l.takeWhile p, [], .last hshort, ?_⟩
        rw [hdrop, List.append_nil] at hsplit
        exact hsplit
      | cons c rest =>
        have hc : p c = false := by
          have hhead := List.head?_dropWhile_not p l
          rw [hdrop] at hhead
          simpa using hhead
        have hless : rest.length < size := by
          rw [hdrop, List.length_cons] at hlen
          omega
        obtain ⟨kept, cuts, hcut, hweave⟩ := ih _ hless _ rfl
        rw [hdrop] at hsplit
        cases hcut with
        | last hkept =>
          have hk : kept = rest := hweave
          exact ⟨l.takeWhile p ++ c :: kept, [], .last (hshort.append_cons hc hkept), by
            rw [weave, hk, hsplit]⟩
        | run hkept hbefore hr hlong' hafter hrest =>
          rename_i run next cuts'
          have hbefore' : ∀ d ∈ (l.takeWhile p ++ c :: kept).getLast?, p d = false := by
            intro d hd
            cases hk : kept.getLast? with
            | none =>
              have hk0 : kept = [] := List.getLast?_eq_none_iff.mp hk
              rw [hk0] at hd
              have hdc : c = d := by simpa using hd
              rw [← hdc, hc]
            | some e =>
              have hde : e = d := by simpa [List.getLast?_cons, hk] using hd
              exact hbefore d (by rw [hk, hde]; rfl)
          have hk : kept ++ (run ++ weave next cuts') = rest := hweave
          exact ⟨l.takeWhile p ++ c :: kept, (run, next) :: cuts',
            .run (hshort.append_cons hc hkept) hbefore' hr hlong' hafter hrest, by
              rw [weave, List.append_assoc, List.cons_append, hk, hsplit]⟩

/-- Masking does not tell one long run from another. -/
theorem maskRuns_swap (hn : 0 < n) {run run' : List α} (hrun : ∀ c ∈ run, p c = true) (hlong : n ≤ run.length)
    (hrun' : ∀ c ∈ run', p c = true) (hlong' : n ≤ run'.length) (before after : List α) :
    maskRuns p n mask (before ++ (run ++ after)) = maskRuns p n mask (before ++ (run' ++ after)) := by
  induction hsize : before.length using Nat.strong_induction_on generalizing before with
  | _ size ih =>
    by_cases hall : ∀ c ∈ before, p c = true
    · -- The run reaches to the front, where all of it is masked.
      have hfront : ∀ {r : List α}, (∀ c ∈ r, p c = true) → n ≤ r.length →
          maskRuns p n mask (before ++ (r ++ after)) = mask ++ maskRuns p n mask (after.dropWhile p) := by
        intro r hr hl
        have htake : n ≤ ((before ++ (r ++ after)).takeWhile p).length := by
          rw [List.takeWhile_append_of_pos hall, List.takeWhile_append_of_pos hr, List.length_append,
            List.length_append]
          omega
        rw [maskRuns_long hn htake, List.dropWhile_append_of_pos hall, List.dropWhile_append_of_pos hr]
      rw [hfront hrun hlong, hfront hrun' hlong']
    · have htake : ∀ r, (before ++ r).takeWhile p = before.takeWhile p := by
        intro r
        rw [List.takeWhile_append, if_neg]
        exact fun he => hall (List.takeWhile_eq_self_iff.mp ((List.takeWhile_prefix p).eq_of_length he))
      by_cases hfirst : n ≤ (before.takeWhile p).length
      · have hdrop : ∀ r, (before ++ r).dropWhile p = before.dropWhile p ++ r := by
          intro r
          have hsplit := List.takeWhile_append_dropWhile (p := p) (l := before ++ r)
          rw [htake] at hsplit
          have hboth : before.takeWhile p ++ (before ++ r).dropWhile p =
              before.takeWhile p ++ (before.dropWhile p ++ r) := by
            rw [hsplit, ← List.append_assoc, List.takeWhile_append_dropWhile]
          exact List.append_cancel_left hboth
        have hmasked : ∀ r, maskRuns p n mask (before ++ r) = mask ++ maskRuns p n mask (before.dropWhile p ++ r) := by
          intro r
          rw [maskRuns_long hn (by rw [htake]; exact hfirst), hdrop]
        have hlen : (before.takeWhile p).length + (before.dropWhile p).length = size := by
          rw [← List.length_append, List.takeWhile_append_dropWhile, hsize]
        rw [hmasked, hmasked, ih _ (by omega) _ rfl]
      · cases before with
        | nil => exact absurd (by simp) hall
        | cons c rest =>
          have hshort : ∀ r, ((c :: (rest ++ r)).takeWhile p).length < n := by
            intro r
            rw [← List.cons_append, htake]
            omega
          rw [List.cons_append, List.cons_append, maskRuns_cons (hshort _), maskRuns_cons (hshort _),
            ih rest.length (by rw [← hsize]; simp) rest rfl]
end RunMasking
