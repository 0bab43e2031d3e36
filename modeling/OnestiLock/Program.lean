import Mathlib.Logic.Basic

/-! Computations that call operations of their surroundings and go on with
whatever comes back, and the rules that follow every one of their runs. -/

inductive Program (Op : Type) (Reply : Op → Type) (ε α : Type)
  | done (a : α)
  | fail (e : ε)
  | call (op : Op) (next : Reply op → Program Op Reply ε α)

namespace Program

variable {Op : Type} {Reply : Op → Type} {ε α β σ : Type}

def bind : Program Op Reply ε α → (α → Program Op Reply ε β) → Program Op Reply ε β
  | done a, f => f a
  | fail e, _ => fail e
  | call op next, f => call op (fun r => (next r).bind f)

def tryCatch : Program Op Reply ε α → (ε → Program Op Reply ε α) → Program Op Reply ε α
  | done a, _ => done a
  | fail e, handler => handler e
  | call op next, handler => call op (fun r => (next r).tryCatch handler)

/-- What comes after a program, whichever way it ended. -/
def both {ε' : Type} : Program Op Reply ε α → (Except ε α → Program Op Reply ε' β) → Program Op Reply ε' β
  | done a, f => f (.ok a)
  | fail e, f => f (.error e)
  | call op next, f => call op (fun r => (next r).both f)

/-- A program run by another one, which carries out its operations, keeps a
state while it does, and goes on from its end. -/
def host {Op' : Type} {Reply' : Op' → Type} {ε' τ : Type}
    (carry : τ → (op : Op) → Program Op' Reply' ε' (Reply op × τ)) :
    Program Op Reply ε α → τ → (τ → Except ε α → Program Op' Reply' ε' β) → Program Op' Reply' ε' β
  | done a, t, f => f t (.ok a)
  | fail e, t, f => f t (.error e)
  | call op next, t, f => (carry t op).bind (fun r => (next r.1).host carry r.2 f)

instance : Monad (Program Op Reply ε) where
  pure := done
  bind := bind

/-- What the surroundings may answer to an operation, and where it leaves them. -/
abbrev Surroundings (Op : Type) (Reply : Op → Type) (σ : Type) :=
  σ → (op : Op) → Reply op → σ → Prop

/-- Calls answered so far, from one point of a run to a later one. -/
inductive Steps (env : Surroundings Op Reply σ) :
    σ → Program Op Reply ε α → σ → Program Op Reply ε α → Prop
  | refl (s : σ) (p : Program Op Reply ε α) : Steps env s p s p
  | call {s s' t : σ} {op : Op} {next : Reply op → Program Op Reply ε α} {r : Reply op}
      {q : Program Op Reply ε α} (h : env s op r s') (hs : Steps env s' (next r) t q) :
      Steps env s (.call op next) t q

theorem Steps.trans {env : Surroundings Op Reply σ} {s t u : σ} {p q r : Program Op Reply ε α}
    (h : Steps env s p t q) (h' : Steps env t q u r) : Steps env s p u r := by
  induction h with
  | refl s p => exact h'
  | call hr _ ih => exact .call hr (ih h')

theorem Steps.bind {env : Surroundings Op Reply σ} {s t : σ} {p : Program Op Reply ε α} {a : α}
    (h : Steps env s p t (.done a)) (f : α → Program Op Reply ε β) : Steps env s (p >>= f) t (f a) := by
  generalize hq : (done a : Program Op Reply ε α) = q at h
  induction h with
  | refl s p =>
    subst hq
    exact .refl s _
  | call hr _ ih => exact .call hr (ih hq)

/-- At every call of every run the guard holds, and at every end the postcondition. -/
def Ensures (env : Surroundings Op Reply σ) (guard : σ → Op → Prop) :
    Program Op Reply ε α → (σ → Except ε α → Prop) → σ → Prop
  | done a, post, s => post s (.ok a)
  | fail e, post, s => post s (.error e)
  | call op next, post, s =>
    guard s op ∧ ∀ r s', env s op r s' → (next r).Ensures env guard post s'

section

variable {env : Surroundings Op Reply σ} {guard : σ → Op → Prop} {s t : σ}
variable {p q : Program Op Reply ε α} {post : σ → Except ε α → Prop}

theorem Ensures.mono {final : σ → Except ε α → Prop} (h : p.Ensures env guard post s)
    (hp : ∀ s out, post s out → final s out) : p.Ensures env guard final s := by
  induction p generalizing s with
  | done a => exact hp s _ h
  | fail e => exact hp s _ h
  | call op next ih => exact ⟨h.1, fun r s' hr => ih r (h.2 r s' hr)⟩

theorem Ensures.bind {f : α → Program Op Reply ε β} {final : σ → Except ε β → Prop}
    (h : p.Ensures env guard post s) (ha : ∀ s a, post s (.ok a) → (f a).Ensures env guard final s)
    (he : ∀ s e, post s (.error e) → final s (.error e)) : (p >>= f).Ensures env guard final s := by
  show (p.bind f).Ensures env guard final s
  induction p generalizing s with
  | done a => exact ha s a h
  | fail e => exact he s e h
  | call op next ih => exact ⟨h.1, fun r s' hr => ih r (h.2 r s' hr)⟩

/-- The rule of sequence, with the weakest condition between the two parts. -/
theorem Ensures.seq {f : α → Program Op Reply ε β} {final : σ → Except ε β → Prop}
    (h : p.Ensures env guard (fun s out =>
      match out with
      | .ok a => (f a).Ensures env guard final s
      | .error e => final s (.error e)) s) : (p >>= f).Ensures env guard final s :=
  h.bind (fun _ _ ha => ha) (fun _ _ he => he)

theorem Ensures.tryCatch {handler : ε → Program Op Reply ε α} {final : σ → Except ε α → Prop}
    (h : p.Ensures env guard post s) (ha : ∀ s a, post s (.ok a) → final s (.ok a))
    (he : ∀ s e, post s (.error e) → (handler e).Ensures env guard final s) :
    (p.tryCatch handler).Ensures env guard final s := by
  induction p generalizing s with
  | done a => exact ha s a h
  | fail e => exact he s e h
  | call op next ih => exact ⟨h.1, fun r s' hr => ih r (h.2 r s' hr)⟩

theorem Ensures.both {ε' : Type} {f : Except ε α → Program Op Reply ε' β} {final : σ → Except ε' β → Prop}
    (h : p.Ensures env guard post s) (hf : ∀ s out, post s out → (f out).Ensures env guard final s) :
    (p.both f).Ensures env guard final s := by
  induction p generalizing s with
  | done a => exact hf s _ h
  | fail e => exact hf s _ h
  | call op next ih => exact ⟨h.1, fun r s' hr => ih r (h.2 r s' hr)⟩

/-- A program is followed through the operations of its host, which keep the
two sides related. -/
theorem Ensures.host {Op' : Type} {Reply' : Op' → Type} {ε' σ' τ : Type}
    {carry : τ → (op : Op) → Program Op' Reply' ε' (Reply op × τ)}
    {f : τ → Except ε α → Program Op' Reply' ε' β} {env' : Surroundings Op' Reply' σ'}
    {guard' : σ' → Op' → Prop} {final : σ' → Except ε' β → Prop} {related : σ → τ → σ' → Prop}
    (h : p.Ensures env guard post s)
    (hcarry : ∀ s t w op, related s t w → guard s op → (carry t op).Ensures env' guard' (fun w' out =>
      match out with
      | .ok r => ∃ s', env s op r.1 s' ∧ related s' r.2 w'
      | .error e => final w' (.error e)) w)
    (hend : ∀ s t w out, related s t w → post s out → (f t out).Ensures env' guard' final w)
    {t : τ} {w : σ'} (hw : related s t w) : (p.host carry t f).Ensures env' guard' final w := by
  induction p generalizing s t w with
  | done a => exact hend s t w _ hw h
  | fail e => exact hend s t w _ hw h
  | call op next ih =>
    refine (hcarry s t w op hw h.1).bind ?_ (fun w' e he => he)
    rintro w' r ⟨s', hr, hw'⟩
    exact ih r.1 (h.2 r.1 s' hr) hw'

theorem Ensures.prod {σ' : Type} {env' : Surroundings Op Reply σ'} {guard' : σ' → Op → Prop}
    {post' : σ' → Except ε α → Prop} {s' : σ'} (h : p.Ensures env guard post s)
    (h' : p.Ensures env' guard' post' s') :
    p.Ensures (fun (v : σ × σ') op r (v' : σ × σ') => env v.1 op r v'.1 ∧ env' v.2 op r v'.2)
      (fun v op => guard v.1 op ∧ guard' v.2 op) (fun v out => post v.1 out ∧ post' v.2 out) (s, s') := by
  induction p generalizing s s' with
  | done a => exact ⟨h, h'⟩
  | fail e => exact ⟨h, h'⟩
  | call op next ih =>
    refine ⟨⟨h.1, h'.1⟩, ?_⟩
    rintro r ⟨t, t'⟩ ⟨ht, ht'⟩
    exact ih r (h.2 r t ht) (h'.2 r t' ht')

/-- Where every call that is allowed stays within a preorder, so does a run. -/
theorem Ensures.since {within : σ → σ → Prop} (hrefl : ∀ s, within s s)
    (htrans : ∀ s t u, within s t → within t u → within s u)
    (hcall : ∀ s op r t, guard s op → env s op r t → within s t) (h : p.Ensures env guard post s) :
    p.Ensures env guard (fun t out => within s t ∧ post t out) s := by
  suffices ∀ first, within first s → p.Ensures env guard (fun t out => within first t ∧ post t out) s from
    this s (hrefl s)
  induction p generalizing s with
  | done a => exact fun first hs => ⟨hs, h⟩
  | fail e => exact fun first hs => ⟨hs, h⟩
  | call op next ih =>
    intro first hs
    refine ⟨h.1, fun r t hr => ?_⟩
    have ht : within s t := hcall s op r t h.1 hr
    exact ih r (h.2 r t hr) first (htrans first s t hs ht)

theorem Ensures.within_of_steps {within : σ → σ → Prop} (hrefl : ∀ s, within s s)
    (htrans : ∀ s t u, within s t → within t u → within s u)
    (hcall : ∀ s op r t, guard s op → env s op r t → within s t) (h : p.Ensures env guard post s)
    (hs : Steps env s p t q) : within s t := by
  induction hs with
  | refl s p => exact hrefl s
  | call hr _ ih => exact htrans _ _ _ (hcall _ _ _ _ h.1 hr) (ih (h.2 _ _ hr))

theorem Ensures.weaken {weaker : σ → Op → Prop} (h : p.Ensures env guard post s)
    (hg : ∀ s op, guard s op → weaker s op) : p.Ensures env weaker post s := by
  induction p generalizing s with
  | done a => exact h
  | fail e => exact h
  | call op next ih => exact ⟨hg s op h.1, fun r s' hr => ih r (h.2 r s' hr)⟩

theorem Ensures.of_forall (hg : ∀ s op, guard s op) (hp : ∀ s out, post s out) (p : Program Op Reply ε α) (s : σ) :
    p.Ensures env guard post s := by
  induction p generalizing s with
  | done a => exact hp s _
  | fail e => exact hp s _
  | call op next ih => exact ⟨hg s op, fun r s' _ => ih r s'⟩

theorem Ensures.of_steps (h : p.Ensures env guard post s) (hs : Steps env s p t q) :
    q.Ensures env guard post t := by
  induction hs with
  | refl s p => exact h
  | call hr _ ih => exact ih (h.2 _ _ hr)

/-- What holds at every call and at every end holds at every moment. -/
theorem Ensures.holds_of_steps {inv : σ → Prop} (h : p.Ensures env (fun s _ => inv s) (fun s _ => inv s) s)
    (hs : Steps env s p t q) : inv t := by
  have hrest := h.of_steps hs
  cases q with
  | done a => exact hrest
  | fail e => exact hrest
  | call op next => exact hrest.1

end

/-- Every call of every run is one of these. -/
def Calls (allowed : Op → Prop) : Program Op Reply ε α → Prop
  | done _ => True
  | fail _ => True
  | call op next => allowed op ∧ ∀ r, (next r).Calls allowed

section

variable {allowed : Op → Prop} {p : Program Op Reply ε α}

theorem Calls.mono {wider : Op → Prop} (h : p.Calls allowed) (hw : ∀ op, allowed op → wider op) :
    p.Calls wider := by
  induction p with
  | done a => trivial
  | fail e => trivial
  | call op next ih => exact ⟨hw op h.1, fun r => ih r (h.2 r)⟩

theorem Calls.both {ε' : Type} {f : Except ε α → Program Op Reply ε' β} (h : p.Calls allowed)
    (hf : ∀ out, (f out).Calls allowed) : (p.both f).Calls allowed := by
  induction p with
  | done a => exact hf _
  | fail e => exact hf _
  | call op next ih => exact ⟨h.1, fun r => ih r (h.2 r)⟩

theorem Calls.bind {f : α → Program Op Reply ε β} (h : p.Calls allowed) (hf : ∀ a, (f a).Calls allowed) :
    (p >>= f).Calls allowed := by
  show (p.bind f).Calls allowed
  induction p with
  | done a => exact hf a
  | fail e => trivial
  | call op next ih => exact ⟨h.1, fun r => ih r (h.2 r)⟩

theorem Calls.tryCatch {handler : ε → Program Op Reply ε α} (h : p.Calls allowed)
    (hh : ∀ e, (handler e).Calls allowed) : (p.tryCatch handler).Calls allowed := by
  induction p with
  | done a => trivial
  | fail e => exact hh e
  | call op next ih => exact ⟨h.1, fun r => ih r (h.2 r)⟩

theorem Calls.host {Op' : Type} {Reply' : Op' → Type} {ε' τ : Type}
    {carry : τ → (op : Op) → Program Op' Reply' ε' (Reply op × τ)}
    {f : τ → Except ε α → Program Op' Reply' ε' β} {allowed' : Op' → Prop} (h : p.Calls allowed)
    (hcarry : ∀ t op, allowed op → (carry t op).Calls allowed') (hend : ∀ t out, (f t out).Calls allowed') (t : τ) :
    (p.host carry t f).Calls allowed' := by
  induction p generalizing t with
  | done a => exact hend t _
  | fail e => exact hend t _
  | call op next ih => exact (hcarry t op h.1).bind (fun r => ih r.1 (h.2 r.1) r.2)

/-- What every call that is made preserves, a run preserves. -/
theorem Calls.ensures {env : Surroundings Op Reply σ} {guard : σ → Op → Prop} {inv : σ → Prop} {s : σ}
    (h : p.Calls allowed) (hguard : ∀ s op, inv s → allowed op → guard s op)
    (hstep : ∀ s op r s', inv s → allowed op → env s op r s' → inv s') (hs : inv s) :
    p.Ensures env guard (fun s _ => inv s) s := by
  induction p generalizing s with
  | done a => exact hs
  | fail e => exact hs
  | call op next ih =>
    exact ⟨hguard s op hs h.1, fun r s' hr => ih r (h.2 r) (hstep s op r s' hs h.1 hr)⟩

end

/-- The surroundings, with every call and its answer on record. -/
def recording (env : Surroundings Op Reply σ) : Surroundings Op Reply (σ × List ((op : Op) × Reply op)) :=
  fun s op r t => env s.1 op r t.1 ∧ t.2 = s.2 ++ [⟨op, r⟩]

/-- In a recorded run every call was made under its guard. -/
theorem Ensures.guarded_of_steps {env : Surroundings Op Reply σ}
    {guard : σ × List ((op : Op) × Reply op) → Op → Prop}
    {post : σ × List ((op : Op) × Reply op) → Except ε α → Prop}
    {s t : σ × List ((op : Op) × Reply op)} {p q : Program Op Reply ε α}
    (h : p.Ensures (recording env) guard post s) (hs : Steps (recording env) s p t q) :
    ∃ calls, t.2 = s.2 ++ calls ∧ ∀ before call after, calls = before ++ call :: after →
      ∃ u : σ, guard (u, s.2 ++ before) call.1 := by
  induction hs with
  | refl s p => exact ⟨[], (List.append_nil _).symm, by simp⟩
  | @call s s' t op next r q hr hs ih =>
    obtain ⟨calls, ht, hcalls⟩ := ih (h.2 r s' hr)
    have hpast : s'.2 = s.2 ++ [⟨op, r⟩] := hr.2
    refine ⟨⟨op, r⟩ :: calls, by rw [ht, hpast, List.append_assoc]; rfl, ?_⟩
    intro before call after heq
    cases before with
    | nil =>
      obtain ⟨rfl, -⟩ := List.cons.inj heq
      exact ⟨s.1, by simpa using h.1⟩
    | cons first before =>
      obtain ⟨rfl, hrest⟩ := List.cons.inj heq
      obtain ⟨u, hu⟩ := hcalls before call after hrest
      rw [hpast, List.append_assoc] at hu
      exact ⟨u, hu⟩

/-- The run in surroundings that answer by a function. -/
def eval (handler : σ → (op : Op) → Reply op × σ) : Program Op Reply ε α → σ → Except ε α × σ
  | done a, s => (.ok a, s)
  | fail e, s => (.error e, s)
  | call op next, s => (next (handler s op).1).eval handler (handler s op).2

/-- The end of a run, as the program that is left. -/
def ended : Except ε α → Program Op Reply ε α
  | .ok a => .done a
  | .error e => .fail e

/-- Where every call is answered, there is a run to the end. -/
theorem Ensures.exists_ended {env : Surroundings Op Reply σ} {guard : σ → Op → Prop} {s : σ}
    {p : Program Op Reply ε α} {post : σ → Except ε α → Prop} (h : p.Ensures env guard post s)
    (henv : ∀ s op, ∃ r s', env s op r s') : ∃ t out, Steps env s p t (ended out) ∧ post t out := by
  induction p generalizing s with
  | done a => exact ⟨s, .ok a, .refl s _, h⟩
  | fail e => exact ⟨s, .error e, .refl s _, h⟩
  | call op next ih =>
    obtain ⟨r, s', hr⟩ := henv s op
    obtain ⟨t, out, hsteps, hpost⟩ := ih r (h.2 r s' hr)
    exact ⟨t, out, .call hr hsteps, hpost⟩

theorem steps_eval {env : Surroundings Op Reply σ} {handler : σ → (op : Op) → Reply op × σ}
    (henv : ∀ s op, env s op (handler s op).1 (handler s op).2) (p : Program Op Reply ε α) (s : σ) :
    Steps env s p (p.eval handler s).2 (ended (p.eval handler s).1) := by
  induction p generalizing s with
  | done a => exact .refl s _
  | fail e => exact .refl s _
  | call op next ih => exact .call (henv s op) (ih _ _)

/-- The first calls of a run, answered by a function. -/
def advance (handler : σ → (op : Op) → Reply op × σ) :
    Nat → Program Op Reply ε α → σ → Program Op Reply ε α × σ
  | n + 1, call op next, s => advance handler n (next (handler s op).1) (handler s op).2
  | _, p, s => (p, s)

theorem steps_advance {env : Surroundings Op Reply σ} {handler : σ → (op : Op) → Reply op × σ}
    (henv : ∀ s op, env s op (handler s op).1 (handler s op).2) (n : Nat) (p : Program Op Reply ε α) (s : σ) :
    Steps env s p (p.advance handler n s).2 (p.advance handler n s).1 := by
  induction n generalizing p s with
  | zero => exact .refl s p
  | succ n ih =>
    cases p with
    | done a => exact .refl s _
    | fail e => exact .refl s _
    | call op next => exact .call (henv s op) (ih _ _)

/-- The call a program is waiting for. -/
def waits : Program Op Reply ε α → Option Op
  | call op _ => some op
  | _ => none

theorem waits_eq_some {p : Program Op Reply ε α} {op : Op} (h : p.waits = some op) :
    ∃ next, p = call op next := by
  cases p with
  | done a => cases h
  | fail e => cases h
  | call op' next =>
    cases h
    exact ⟨next, rfl⟩

/-- Answers by a function, on record. -/
def recorded (handler : σ → (op : Op) → Reply op × σ) (s : σ × List ((op : Op) × Reply op)) (op : Op) :
    Reply op × (σ × List ((op : Op) × Reply op)) :=
  ((handler s.1 op).1, ((handler s.1 op).2, s.2 ++ [⟨op, (handler s.1 op).1⟩]))

theorem recording_recorded {env : Surroundings Op Reply σ} {handler : σ → (op : Op) → Reply op × σ}
    (henv : ∀ s op, env s op (handler s op).1 (handler s op).2) (s : σ × List ((op : Op) × Reply op)) (op : Op) :
    recording env s op (recorded handler s op).1 (recorded handler s op).2 :=
  ⟨henv s.1 op, rfl⟩

theorem Ensures.eval {env : Surroundings Op Reply σ} {guard : σ → Op → Prop} {s : σ}
    {p : Program Op Reply ε α} {post : σ → Except ε α → Prop} {handler : σ → (op : Op) → Reply op × σ}
    (h : p.Ensures env guard post s) (henv : ∀ s op, env s op (handler s op).1 (handler s op).2) :
    post (p.eval handler s).2 (p.eval handler s).1 := by
  induction p generalizing s with
  | done a => exact h
  | fail e => exact h
  | call op next ih => exact ih _ (h.2 _ _ (henv s op))

/-- `try: p finally: cleanup`: a cleanup that fails takes the place of how `p` ended. -/
def closing (p : Program Op Reply ε α) (cleanup : Program Op Reply ε Unit) : Program Op Reply ε α :=
  p.both (fun out => cleanup.bind (fun _ => ended out))

theorem ensures_ended {env : Surroundings Op Reply σ} {guard : σ → Op → Prop} {post : σ → Except ε α → Prop}
    {s : σ} {out : Except ε α} (h : post s out) : (ended out).Ensures env guard post s := by
  cases out <;> exact h

/-- What the cleanup makes of the state at either end holds after it. -/
theorem Ensures.closing {env : Surroundings Op Reply σ} {guard : σ → Op → Prop} {s : σ}
    {p : Program Op Reply ε α} {cleanup : Program Op Reply ε Unit} {post final : σ → Except ε α → Prop}
    (h : p.Ensures env guard post s)
    (hclean : ∀ s out, post s out → cleanup.Ensures env guard (fun t c =>
      match c with
      | .ok () => final t out
      | .error e => final t (.error e)) s) : (p.closing cleanup).Ensures env guard final s := by
  refine h.both (fun s out hout => ?_)
  refine (hclean s out hout).bind ?_ (fun t e he => he)
  intro t u ht
  exact ensures_ended ht

end Program
