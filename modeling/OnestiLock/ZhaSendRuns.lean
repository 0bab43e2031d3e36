import Mathlib.Data.List.Induction
import OnestiLock.ZhaSend

/-! The retry contract of `send`: how often a lock is sent a command and woken
in a run, and what becomes of its last attempt. -/

namespace OnestiLock

open Python

namespace Zha

open Program

variable {Params : Type}

theorem attempts_append (calls : List (Call Params)) (op : Op Params) (r : Reply op) :
    attempts (calls ++ [⟨op, r⟩]) = attempts calls ++ (attemptOf ⟨op, r⟩).toList := by
  cases h : attemptOf ⟨op, r⟩ <;> simp [attempts, List.filterMap_append, h]

theorem wakes_append (calls : List (Call Params)) (op : Op Params) (r : Reply op) :
    wakes (calls ++ [⟨op, r⟩]) = wakes calls + (if isWake ⟨op, r⟩ then 1 else 0) := by
  cases h : isWake ⟨op, r⟩ <;> simp [wakes, List.countP_append, h]

theorem actuations_append (calls : List (Call Params)) (op : Op Params) (r : Reply op) :
    actuations (calls ++ [⟨op, r⟩]) = actuations calls + (if isActuation ⟨op, r⟩ then 1 else 0) := by
  cases h : isActuation ⟨op, r⟩ <;> simp [actuations, List.countP_append, h]

/-- When `send` makes a call, by the calls it made before. -/
def Permits (command : Nat) (params : Params) (calls : List (Call Params)) : Op Params → Prop
  | .command c p => c = command ∧ p = params ∧
      (attempts calls = [] ∨ ∃ a, attempts calls = [a] ∧ a.sleepy = true)
  | .lastWake => wakes calls = 0 ∧ ∃ a, attempts calls = [a] ∧ a.sleepy = true
  | .lockService _ => actuations calls = 0 ∧ ∃ a, attempts calls = [a] ∧ a.sleepy = true
  | .cluster | .findLockEntityId | .monotonic | .setLastWake _ | .sleep _ => True

/-- What is quoted in the log at the end: the last attempt, unless it is the
first of a sleeping lock. -/
def QuotableEnd : List Attempt → Prop
  | [] => True
  | [a] => a.sleepy = false → a.Quotable
  | _ :: a :: _ => a.Quotable

/-- The wakes and the result at the end of a run. -/
structure Ends (command : Nat) (calls : List (Call Params)) (out : Except Exn SendOutcome) : Prop where
  wakes : wakes calls = 1 ↔ ∃ a later, attempts calls = a :: later ∧ a.sleepy = true
  settles : Settles command (attempts calls).getLast? out ↔ QuotableEnd (attempts calls)

section

variable {σ : Type} {env : Surroundings (Op Params) Reply σ} {command : Nat} {params : Params}
variable {s t : σ × List (Call Params)} {a : Attempt}

/-- In the middle of the wake, or after it. -/
structure Woken (a : Attempt) (calls : List (Call Params)) : Prop where
  attempts : attempts calls = [a]
  wakes : wakes calls = 1
  sleepy : a.sleepy = true

theorem Woken.call {op : Op Params} {r : Reply op} (h : Woken a s.2) (hr : recording env s op r t)
    (hattempt : attemptOf ⟨op, r⟩ = none) (hwake : isWake ⟨op, r⟩ = false) : Woken a t.2 := by
  obtain ⟨-, hpast⟩ := hr
  refine ⟨?_, ?_, h.sleepy⟩
  · rw [hpast, attempts_append, hattempt, h.attempts]
    rfl
  · rw [hpast, wakes_append, hwake, h.wakes]
    rfl

abbrev Follows {α : Type} (env : Surroundings (Op Params) Reply σ) (command : Nat) (params : Params)
    (p : ZhaProgram Params α) (post : List (Call Params) → Except Exn α → Prop)
    (s : σ × List (Call Params)) : Prop :=
  p.Ensures (recording env) (fun u => Permits command params u.2) (fun t => post t.2) s

theorem follows_ended {α : Type} {post : List (Call Params) → Except Exn α → Prop} {x : Except Exn α}
    (h : post s.2 x) : Follows env command params (ended x) post s := by
  cases x with
  | ok a => exact h
  | error e => exact h

theorem woken_ended {α : Type} {x : Except Exn α} (h : Woken a t.2) :
    Follows env command params (ended x) (fun calls _ => Woken a calls) t := by
  cases x <;> exact h

theorem resting_call {op : Op Params} {r : Reply op} (h : actuations s.2 = 0) (hr : recording env s op r t)
    (hrest : isActuation ⟨op, r⟩ = false) : actuations t.2 = 0 := by
  obtain ⟨-, hpast⟩ := hr
  rw [hpast, actuations_append, hrest, h]
  rfl

/-- Every call of the wake leaves it in its middle, and the bolt is moved once. -/
theorem follows_actuate (h : Woken a s.2) (hrest : actuations s.2 = 0) :
    Follows env command params actuate (fun calls _ => Woken a calls) s := by
  have hsleep : ∀ u : σ × List (Call Params), Woken a u.2 →
      Follows env command params (sleep 1) (fun calls _ => Woken a calls) u :=
    fun u hu => ⟨trivial, fun _ t hr => woken_ended (hu.call hr rfl rfl)⟩
  have hservice : ∀ entityId, ∀ u : σ × List (Call Params), Woken a u.2 → actuations u.2 = 0 →
      Follows env command params (lockService entityId >>= fun _ => sleep 1) (fun calls _ => Woken a calls) u := by
    intro entityId u hu hstill
    have hcall : Follows env command params (lockService entityId) (fun calls _ => Woken a calls) u :=
      ⟨⟨hstill, a, hu.attempts, hu.sleepy⟩, fun _ t hr => woken_ended (hu.call hr rfl rfl)⟩
    exact hcall.bind (fun t _ ht => hsleep t ht) (fun t _ ht => ht)
  have hfind : Follows env command params findLockEntityId
      (fun calls _ => Woken a calls ∧ actuations calls = 0) s := by
    refine ⟨trivial, fun found t hr => ?_⟩
    have ht : Woken a t.2 ∧ actuations t.2 = 0 := ⟨h.call hr rfl rfl, resting_call hrest hr rfl⟩
    cases found <;> exact ht
  refine hfind.bind (fun t found ht => ?_) (fun t _ ht => ht.1)
  cases found with
  | none => exact ht.1
  | some entityId =>
    refine ⟨trivial, fun now u hu => ?_⟩
    refine ⟨trivial, fun _ v hv => ?_⟩
    have hwoken : Woken a v.2 := (ht.1.call hu rfl rfl).call hv rfl rfl
    exact hservice entityId v hwoken (resting_call (resting_call ht.2 hu rfl) hv rfl)

theorem follows_wake (hattempts : attempts s.2 = [a]) (hwakes : wakes s.2 = 0)
    (hrest : actuations s.2 = 0) (hsleepy : a.sleepy = true) :
    Follows env command params wake
      (fun calls out => Woken a calls ∧ ∀ e, out = .error e → e.isException = false) s := by
  refine ⟨⟨hwakes, a, hattempts, hsleepy⟩, fun previousWake t ht => ?_⟩
  have hstill : actuations t.2 = 0 := resting_call hrest ht rfl
  have hwoken : Woken a t.2 := by
    obtain ⟨-, hpast⟩ := ht
    refine ⟨?_, ?_, hsleepy⟩
    · rw [hpast, attempts_append, hattempts]
      rfl
    · rw [hpast, wakes_append, hwakes]
      rfl
  refine Ensures.tryCatch (follows_actuate hwoken hstill) (fun u _ hu => ?_) (fun u e hu => ?_)
  · exact ⟨hu, fun e he => by cases he⟩
  · cases he : e.isException with
    | true => exact ⟨trivial, fun r v hv => ⟨hu.call hv rfl rfl, fun e he => by cases he⟩⟩
    | false =>
      refine ⟨hu, fun e' he' => ?_⟩
      cases he'
      exact he

theorem follows_second (h : Woken a s.2) :
    Follows env command params (sendRounds command params [2]) (Ends command) s := by
  rw [sendRounds_cons]
  refine ⟨⟨rfl, rfl, Or.inr ⟨a, h.attempts, h.sleepy⟩⟩, fun b t hr => ?_⟩
  obtain ⟨-, hpast⟩ := hr
  have hattempts : attempts t.2 = [a, b] := by
    rw [hpast, attempts_append, h.attempts]
    rfl
  have hwakes : wakes t.2 = 1 := by
    rw [hpast, wakes_append, h.wakes]
    rfl
  have hends : Ends command t.2 (conclusion command b) := by
    constructor
    · rw [hattempts]
      exact iff_of_true hwakes ⟨a, [b], rfl, h.sleepy⟩
    · rw [hattempts]
      exact settles_conclusion_iff command b
  simpa using follows_ended hends

theorem follows_rounds (hattempts : attempts s.2 = []) (hwakes : wakes s.2 = 0)
    (hrest : actuations s.2 = 0) :
    Follows env command params (sendRounds command params [1, 2]) (Ends command) s := by
  rw [sendRounds_cons]
  refine ⟨⟨rfl, rfl, Or.inl hattempts⟩, fun a t hr => ?_⟩
  have hstill : actuations t.2 = 0 := resting_call hrest hr rfl
  obtain ⟨-, hpast⟩ := hr
  have hone : attempts t.2 = [a] := by
    rw [hpast, attempts_append, hattempts]
    rfl
  have hnone : wakes t.2 = 0 := by
    rw [hpast, wakes_append, hwakes]
    rfl
  cases hsleepy : a.sleepy with
  | true =>
    have hwake : Follows env command params wake
        (fun calls out => Woken a calls ∧ ∀ e, out = .error e → e.isException = false) t :=
      follows_wake hone hnone hstill hsleepy
    have hround : Follows env command params (wake >>= fun _ => sendRounds command params [2])
        (Ends command) t := by
      refine Ensures.bind hwake (fun u _ hu => follows_second hu.1) (fun u e hu => ?_)
      have hbase : e.isException = false := hu.2 e rfl
      have hawake : a.unfailing = false ∧ a.refusing = false := by
        cases a <;> first | exact ⟨rfl, rfl⟩ | cases hsleepy
      constructor
      · rw [hu.1.attempts]
        exact iff_of_true hu.1.wakes ⟨a, [], rfl, hsleepy⟩
      · rw [hu.1.attempts]
        refine iff_of_true (settles_stopped hbase hawake.1 hawake.2) (fun hawake => ?_)
        rw [hsleepy] at hawake
        cases hawake
    simpa [hsleepy] using hround
  | false =>
    have hends : Ends command t.2 (conclusion command a) := by
      constructor
      · rw [hone]
        refine iff_of_false (by omega) ?_
        rintro ⟨b, later, hb, hbs⟩
        cases hb
        rw [hsleepy] at hbs
        cases hbs
      · rw [hone]
        exact (settles_conclusion_iff command a).trans ⟨fun h _ => h, fun h => h hsleepy⟩
    have hround : Follows env command params (ended (conclusion command a)) (Ends command) t :=
      follows_ended hends
    simpa [hsleepy] using hround

theorem follows_send (state : σ) :
    Follows env command params (send command params) (Ends command) (state, []) := by
  refine ⟨trivial, fun found t hr => ?_⟩
  obtain ⟨-, hpast⟩ := hr
  have hattempts : attempts t.2 = [] := by
    rw [hpast]
    rfl
  have hwakes : wakes t.2 = 0 := by
    rw [hpast]
    rfl
  have hrest : actuations t.2 = 0 := by
    rw [hpast]
    rfl
  cases found with
  | true => exact follows_rounds hattempts hwakes hrest
  | false =>
    constructor
    · rw [hattempts]
      refine iff_of_false (by omega) ?_
      rintro ⟨a, later, ha, -⟩
      cases ha
    · rw [hattempts]
      exact iff_of_true (settles_unreached (fun a ha => by cases ha)) trivial

end

/-! What the calls on record add up to. -/

section

variable {command : Nat} {params : Params} {calls : List (Call Params)}

/-- Every call was made when `send` makes it. -/
def Permitted (command : Nat) (params : Params) (calls : List (Call Params)) : Prop :=
  ∀ before call after, calls = before ++ call :: after → Permits command params before call.1

theorem Permitted.of_append {call : Call Params} (h : Permitted command params (calls ++ [call])) :
    Permitted command params calls ∧ Permits command params calls call.1 := by
  constructor
  · intro before c after heq
    refine h before c (after ++ [call]) ?_
    rw [heq, List.append_assoc]
    rfl
  · exact h calls call [] rfl

structure Bounded (calls : List (Call Params)) : Prop where
  attempts : (attempts calls).length ≤ 2
  wakes : wakes calls ≤ 1
  actuations : actuations calls ≤ 1
  sleepy : 0 < Zha.wakes calls → ∃ a later, Zha.attempts calls = a :: later ∧ a.sleepy = true

theorem Permitted.bounded (h : Permitted command params calls) : Bounded calls := by
  induction calls using List.reverseRecOn with
  | nil => exact ⟨by simp [attempts], by simp [wakes], by simp [actuations], by simp [wakes]⟩
  | append_singleton calls call ih =>
    obtain ⟨hcalls, hcall⟩ := h.of_append
    have hb : Bounded calls := ih hcalls
    obtain ⟨op, r⟩ := call
    have hfirst : ∀ {later : List Attempt}, (0 < wakes calls →
        ∃ a rest, attempts calls ++ later = a :: rest ∧ a.sleepy = true) := by
      intro later hpos
      obtain ⟨a, rest, ha, hs⟩ := hb.sleepy hpos
      exact ⟨a, rest ++ later, by rw [ha]; rfl, hs⟩
    constructor
    · rw [attempts_append]
      cases op with
      | command c p =>
        obtain ⟨-, -, hnone | ⟨a, ha, -⟩⟩ := hcall
        · simp [hnone, attemptOf]
        · simp [ha, attemptOf]
      | _ => simpa [attemptOf] using hb.attempts
    · rw [wakes_append]
      cases op with
      | lastWake => simp [hcall.1, isWake]
      | _ => simpa [isWake] using hb.wakes
    · rw [actuations_append]
      cases op with
      | lockService entityId => simp [hcall.1, isActuation]
      | _ => simpa [isActuation] using hb.actuations
    · rw [wakes_append, attempts_append]
      cases op with
      | lastWake =>
        obtain ⟨-, a, ha, hs⟩ := hcall
        exact fun _ => ⟨a, [], by simp [ha, attemptOf], hs⟩
      | _ => exact fun hpos => hfirst (by simpa [isWake] using hpos)

end

/-- The retry contract at the end of a run. -/
structure Contract (command : Nat) (params : Params) (calls : List (Call Params))
    (out : Except Exn SendOutcome) : Prop where
  bounded : Bounded calls
  permitted : Permitted command params calls
  woken : wakes calls = 1 ↔ ∃ a later, attempts calls = a :: later ∧ a.sleepy = true
  settles : Settles command (attempts calls).getLast? out

/-- At every point of every run the lock is sent the command at most twice and
woken at most once, after a first attempt that found it asleep. The run ends as
its last attempt says unless what is quoted in the log cannot be quoted. -/
theorem send_contract_iff {σ : Type} (env : Surroundings (Op Params) Reply σ) (command : Nat)
    (params : Params) {state : σ} {t : σ × List (Call Params)} {q : ZhaProgram Params SendOutcome}
    (hs : Steps (recording env) (state, []) (send command params) t q) :
    Bounded t.2 ∧ Permitted command params t.2 ∧
      ∀ out, q = ended out → (Contract command params t.2 out ↔ QuotableEnd (attempts t.2)) := by
  have hfollows : Follows env command params (send command params) (Ends command) (state, []) :=
    follows_send state
  obtain ⟨calls, hcalls, hguard⟩ := hfollows.guarded_of_steps hs
  have hpermitted : Permitted command params t.2 := by
    intro before call after heq
    obtain ⟨u, hu⟩ := hguard before call after (hcalls.symm.trans heq)
    exact hu
  have hbounded : Bounded t.2 := hpermitted.bounded
  refine ⟨hbounded, hpermitted, ?_⟩
  rintro out rfl
  have hend := hfollows.of_steps hs
  have hends : Ends command t.2 out := by
    cases out with
    | ok o => exact hend
    | error e => exact hend
  constructor
  · intro h
    exact hends.settles.mp h.settles
  · intro h
    exact ⟨hbounded, hpermitted, hends.wakes, hends.settles.mpr h⟩

/-- Whatever the lock and Home Assistant do. -/
def anything {σ : Type} : Surroundings (Op Params) Reply σ := fun _ _ _ _ => True

/-- A lock that can be woken and makes these attempts in order. -/
def scripted (script : List Attempt) : (op : Op Unit) → Reply op × List Attempt
  | .cluster => (true, script)
  | .command _ _ => (script.headD .cancelled, script.tail)
  | .lastWake => (none, script)
  | .findLockEntityId => (.ok (some "lock.front_door"), script)
  | .monotonic => (0, script)
  | .setLastWake _ => ((), script)
  | .lockService _ => (.ok (), script)
  | .sleep _ => (.ok (), script)

theorem steps_scripted (script : List Attempt) (command : Nat) :
    let last := (send command ()).eval (recorded scripted) (script, [])
    Steps (recording anything) (script, []) (send command ()) last.2 (ended last.1) :=
  steps_eval (recording_recorded (fun _ _ => trivial)) _ _

/-- A duplicate PIN, with the status by the name zigpy gives it. -/
def duplicateCode : Attempt :=
  .returned (.answer ⟨some (.member setPinStatusDuplicateCode (text "undefined_0x03")), false⟩)

theorem send_contract_iff_duplicate : ∃ t : List Attempt × List (Call Unit),
    Steps (recording anything) ([.timeoutError (.ok []), duplicateCode], []) (send setPinCommand ()) t
      (ended (.ok ⟨.rejected, some 3, some .duplicateCode⟩)) ∧
    wakes t.2 = 1 ∧ Contract setPinCommand () t.2 (.ok ⟨.rejected, some 3, some .duplicateCode⟩) := by
  have hsteps := steps_scripted [.timeoutError (.ok []), duplicateCode] setPinCommand
  refine ⟨_, hsteps, rfl, ?_⟩
  refine ((send_contract_iff anything setPinCommand () hsteps).2.2 _ rfl).mpr ?_
  intro status hstatus _
  obtain rfl : Status.member setPinStatusDuplicateCode (text "undefined_0x03") = status :=
    Option.some.inj hstatus
  exact ⟨fun e he => (nomatch he), text "undefined_0x03", rfl⟩

def answeredWith (value : Int) : Attempt := .returned (.answer ⟨some (.integer value), false⟩)

/-- The refusal is quoted outside of every `except`. -/
theorem send_raises_of_long {value : Int} (hlong : 10 ^ maxStrDigits ≤ value.natAbs) :
    ∃ t : List Attempt × List (Call Unit),
      Steps (recording anything) ([answeredWith value], []) (send setPinCommand ()) t
        (ended (.error (.other "ValueError"))) ∧
      ¬ Contract setPinCommand () t.2 (.error (.other "ValueError")) := by
  have hfail : (Status.integer value).isSuccess = false := by
    have hpos : 0 < 10 ^ maxStrDigits := Nat.pow_pos Nat.succ_pos'
    have hne : value ≠ 0 := by
      intro hzero
      rw [hzero, Int.natAbs_zero] at hlong
      exact Nat.not_lt.mpr hlong hpos
    simpa [Status.isSuccess] using hne
  have hname : (Status.integer value).statusName = .error ⟨.other "ValueError", valueError_isException⟩ := by
    rw [Status.statusName, strInt, if_neg (Nat.not_lt.mpr hlong)]
  have hout : outcome setPinCommand (.answer ⟨some (.integer value), false⟩) =
      .error ⟨.other "ValueError", valueError_isException⟩ := by
    simp only [outcome, hfail, Bool.false_eq_true, if_false, rejected, hname, Status.number]
    rfl
  let found : List (Call Unit) := [⟨.cluster, true⟩]
  let told : List (Call Unit) := found ++ [⟨.command setPinCommand (), answeredWith value⟩]
  have hround : Steps (recording anything) ([answeredWith value], found) (sendRounds setPinCommand () [1, 2])
      ([answeredWith value], told)
      (raising (outcome setPinCommand (.answer ⟨some (.integer value), false⟩))) := by
    rw [sendRounds]
    exact .call (r := answeredWith value) ⟨trivial, rfl⟩ (.refl _ _)
  have hsteps : Steps (recording anything) ([answeredWith value], []) (send setPinCommand ())
      ([answeredWith value], told)
      (raising (outcome setPinCommand (.answer ⟨some (.integer value), false⟩))) :=
    .call (r := true) ⟨trivial, rfl⟩ hround
  rw [raising, hout] at hsteps
  exact ⟨_, hsteps, fun h => not_settles_raised ⟨_, valueError_isException⟩ h.settles⟩

/-- A status of 4301 digits. -/
theorem send_raises_hugeStatus : ∃ t : List Attempt × List (Call Unit),
    Steps (recording anything) ([answeredWith ((10 ^ maxStrDigits : Nat) : Int)], [])
      (send setPinCommand ()) t (ended (.error (.other "ValueError"))) ∧
    ¬ Contract setPinCommand () t.2 (.error (.other "ValueError")) :=
  send_raises_of_long (Nat.le_of_eq (Int.natAbs_natCast _).symm)

end Zha

end OnestiLock
