import OnestiLock.SessionTurns

/-! What holds of a session in every reachable state: one command at a time,
its bookkeeping, and the references handed out. -/

namespace OnestiLock

open Transition

/-- The coroutine is inside the command lock. -/
def Hold.holds : Hold → Bool
  | outside | reading | closing => false
  | locked | ready | paused _ | flying _ => true

theorem Hold.holds_of_eq {x y : Hold} (he : x = y) (hy : y.holds = true) : x.holds = true := by
  rw [he]
  exact hy

structure Flight (config : SessionConfig) (w : World) (h : TaskId → Hold) : Prop where
  holder : ∀ t, (h t).holds = true → w.session.commandLock.holder = some t
  flying : ∀ t call, h t = .flying call → ∃ p, w.session.pending = some p ∧ p.call = call
  pending : ∀ p, w.session.pending = some p → ∃ t, h t = .flying p.call
  paused : ∀ t wake, h t = .paused wake → w.session.readyAt = wake
  ready : ∀ t, h t = .ready → w.session.readyAt ≤ w.now
  last : ∀ p, w.session.pending = some p → p.call + 1 = w.issued
  same : ∀ p, w.session.pending = some p →
    (w.calls p.call).commandRef = p.commandRef ∧ (w.calls p.call).staticRef = p.staticRef
  began : ∀ p, w.session.pending = some p →
    w.session.readyAt ≤ (w.calls p.call).began ∧ (w.calls p.call).began ≤ w.now
  running : ∀ p, w.session.pending = some p → (w.calls p.call).ended = none
  ended : ∀ k < w.issued, (w.calls k).ended = none → ∃ p, w.session.pending = some p ∧ p.call = k
  late : ∀ k time, (w.calls k).ended = some (.timedOut, time) → (w.calls k).staticRef = true →
    time + config.lateAnswerGrace ≤ w.session.readyAt
  unissued : ∀ k, w.issued ≤ k → (w.calls k).ended = none ∧ (w.calls k).completion = none

/-- The part of a call's history that its future and its writes leave alone. -/
def Call.record (c : Call) : Nat × Bool × Nat × Option (Ending × Nat) :=
  (c.commandRef, c.staticRef, c.began, c.ended)

namespace Flight

variable {config : SessionConfig} {w w' : World} {h : TaskId → Hold} {t t' : TaskId}

theorem init : Flight config (.new config) (World.new config).hold where
  holder t ht := by simp [World.hold, World.new, Hold.holds] at ht
  flying t call ht := by simp [World.hold, World.new] at ht
  pending p hp := by simp [World.new, Session.new] at hp
  paused t wake ht := by simp [World.hold, World.new] at ht
  ready t ht := by simp [World.hold, World.new] at ht
  last p hp := by simp [World.new, Session.new] at hp
  same p hp := by simp [World.new, Session.new] at hp
  began p hp := by simp [World.new, Session.new] at hp
  running p hp := by simp [World.new, Session.new] at hp
  ended k hk := by simp [World.new] at hk
  late k time hk := by simp [World.new, Call.issued] at hk
  unissued k _ := by simp [World.new, Call.issued]

theorem alone (hi : Flight config w h) (ht : (h t).holds = true) (ht' : (h t').holds = true) :
    t = t' := by
  have h1 := hi.holder t ht
  rw [hi.holder t' ht'] at h1
  exact (Option.some.inj h1).symm

theorem idle (hi : Flight config w h) (ht : (h t).holds = true) (hn : ∀ call, h t ≠ .flying call) :
    w.session.pending = none := by
  cases hp : w.session.pending with
  | none => rfl
  | some p =>
    obtain ⟨t', ht'⟩ := hi.pending p hp
    have he := hi.alone ht (Hold.holds_of_eq ht' rfl)
    subst he
    exact absurd ht' (hn _)

theorem congr (hi : Flight config w h)
    (hholder : w'.session.commandLock.holder = w.session.commandLock.holder)
    (hpending : w'.session.pending = w.session.pending)
    (hready : w'.session.readyAt = w.session.readyAt) (hissued : w'.issued = w.issued)
    (hnow : w.now ≤ w'.now) (hrecord : ∀ k, (w'.calls k).record = (w.calls k).record)
    (hcompletion : ∀ k, w.issued ≤ k → (w'.calls k).completion = (w.calls k).completion) :
    Flight config w' h := by
  have href : ∀ k, (w'.calls k).commandRef = (w.calls k).commandRef :=
    fun k => congrArg (·.1) (hrecord k)
  have hstatic : ∀ k, (w'.calls k).staticRef = (w.calls k).staticRef :=
    fun k => congrArg (·.2.1) (hrecord k)
  have hbegan : ∀ k, (w'.calls k).began = (w.calls k).began :=
    fun k => congrArg (·.2.2.1) (hrecord k)
  have hended : ∀ k, (w'.calls k).ended = (w.calls k).ended :=
    fun k => congrArg (·.2.2.2) (hrecord k)
  constructor
  · simpa only [hholder] using hi.holder
  · simpa only [hpending] using hi.flying
  · simpa only [hpending] using hi.pending
  · simpa only [hready] using hi.paused
  · intro t ht
    rw [hready]
    exact Nat.le_trans (hi.ready t ht) hnow
  · simpa only [hpending, hissued] using hi.last
  · simpa only [hpending, href, hstatic] using hi.same
  · intro p hp
    rw [hpending] at hp
    rw [hready, hbegan]
    exact ⟨(hi.began p hp).1, Nat.le_trans (hi.began p hp).2 hnow⟩
  · simpa only [hpending, hended] using hi.running
  · simpa only [hpending, hissued, hended] using hi.ended
  · simpa only [hended, hstatic, hready] using hi.late
  · intro k hk
    rw [hissued] at hk
    rw [hended, hcompletion k hk]
    exact hi.unissued k hk

theorem quiet (hi : Flight config w h) (hq : Quiet w w') : Flight config w' h :=
  hi.congr hq.holder hq.pending hq.readyAt hq.issued (Nat.le_of_eq hq.now.symm) (fun k => by rw [hq.calls])
    (fun k _ => by rw [hq.calls])

theorem reseat {x : Hold} (hi : Flight config w h) (hn : ∀ call, h t ≠ .flying call)
    (hholds : x.holds = true → w.session.commandLock.holder = some t)
    (hx : ∀ call, x ≠ .flying call) (hp : ∀ wake, x = .paused wake → w.session.readyAt = wake)
    (hr : x = .ready → w.session.readyAt ≤ w.now) : Flight config w (Function.update h t x) := by
  refine { hi with holder := ?_, flying := ?_, pending := ?_, paused := ?_, ready := ?_ }
  · intro t' ht'
    by_cases he : t' = t
    · subst he
      rw [Function.update_self] at ht'
      exact hholds ht'
    · rw [Function.update_of_ne he] at ht'
      exact hi.holder t' ht'
  · intro t' call ht'
    by_cases he : t' = t
    · subst he
      rw [Function.update_self] at ht'
      exact absurd ht' (hx call)
    · rw [Function.update_of_ne he] at ht'
      exact hi.flying t' call ht'
  · intro p hpend
    obtain ⟨t', ht'⟩ := hi.pending p hpend
    have he : t' ≠ t := by
      rintro rfl
      exact hn _ ht'
    exact ⟨t', by rw [Function.update_of_ne he, ht']⟩
  · intro t' wake ht'
    by_cases he : t' = t
    · subst he
      rw [Function.update_self] at ht'
      exact hp wake ht'
    · rw [Function.update_of_ne he] at ht'
      exact hi.paused t' wake ht'
  · intro t' ht'
    by_cases he : t' = t
    · subst he
      rw [Function.update_self] at ht'
      exact hr ht'
    · rw [Function.update_of_ne he] at ht'
      exact hi.ready t' ht'

theorem modifyCall (hi : Flight config w h) (call : Nat) {f : Call → Call}
    (hf : (f (w.calls call)).record = (w.calls call).record)
    (hc : w.issued ≤ call → (f (w.calls call)).completion = (w.calls call).completion) :
    Flight config (w.modifyCall call f) h := by
  refine hi.congr rfl rfl rfl rfl (Nat.le_refl _) ?_ ?_
  · intro k
    by_cases hk : k = call
    · subst hk
      simpa [World.modifyCall] using hf
    · simp [World.modifyCall, hk]
  · intro k hissued
    by_cases hk : k = call
    · subst hk
      simpa [World.modifyCall] using hc hissued
    · simp [World.modifyCall, hk]

theorem release (hi : Flight config w h) (ht : (h t).holds = true) (hn : ∀ call, h t ≠ .flying call) :
    Flight config (w.withLock w.session.commandLock.release) (Function.update h t .outside) := by
  have hs : Flight config w (Function.update h t .outside) :=
    hi.reseat hn (by simp [Hold.holds]) (by simp) (by simp) (by simp)
  refine { hs with holder := ?_ }
  intro t' ht'
  by_cases he : t' = t
  · subst he
    rw [Function.update_self] at ht'
    simp [Hold.holds] at ht'
  · rw [Function.update_of_ne he] at ht'
    exact absurd (hi.alone ht' ht) he

theorem take {lock : FifoLock TaskId} (hi : Flight config w h) (ht : h t = .outside)
    (hfree : w.session.commandLock.holder = none) (hlock : lock.holder = some t) :
    Flight config (w.withLock lock) (Function.update h t .locked) := by
  have hs : Flight config w (Function.update h t .outside) := by
    rw [← ht, Function.update_eq_self]
    exact hi
  have hnone : ∀ t', (h t').holds = false := by
    intro t'
    by_contra hc
    rw [hi.holder t' (by simpa using hc)] at hfree
    simp at hfree
  have hw : Flight config (w.withLock lock) (Function.update h t .outside) := by
    refine { hs with holder := ?_ }
    intro t' ht'
    by_cases he : t' = t
    · subst he
      rw [Function.update_self] at ht'
      simp [Hold.holds] at ht'
    · rw [Function.update_of_ne he, hnone t'] at ht'
      simp at ht'
  have hlocked := hw.reseat (t := t) (x := .locked) (by simp) (fun _ => hlock) (by simp) (by simp) (by simp)
  rwa [Function.update_idem] at hlocked

theorem issue (hi : Flight config w h) (ht : h t = .ready) (commandId : CommandId)
    (refs : CommandRefCounter) :
    let begun := (w.issue commandId refs).setPending
      ⟨commandId, refs.next.1, refs.isStatic, w.issued⟩
    Flight config begun (Function.update h t (.flying w.issued)) := by
  intro begun
  have hholds : (h t).holds = true := by rw [ht]; rfl
  have hpending := hi.idle hholds (by simp [ht])
  have hother : ∀ t', t' ≠ t → (h t').holds = false := by
    intro t' he
    by_contra hc
    exact he (hi.alone (by simpa using hc) hholds)
  have hcall : ∀ k, k ≠ w.issued → begun.calls k = w.calls k := by
    intro k hk
    simp [begun, World.setPending, World.issue, hk]
  have hnew : begun.calls w.issued = .issued commandId refs.next.1 refs.isStatic w.now := by
    simp [begun, World.setPending, World.issue]
  constructor
  · intro t' ht'
    by_cases he : t' = t
    · subst he
      exact hi.holder t' hholds
    · rw [Function.update_of_ne he, hother t' he] at ht'
      simp at ht'
  · intro t' call ht'
    by_cases he : t' = t
    · subst he
      rw [Function.update_self] at ht'
      exact ⟨_, rfl, Hold.flying.inj ht'⟩
    · rw [Function.update_of_ne he] at ht'
      have hc := hother t' he
      rw [ht'] at hc
      simp [Hold.holds] at hc
  · intro p hp
    obtain rfl := Option.some.inj hp
    exact ⟨t, Function.update_self ..⟩
  · intro t' wake ht'
    by_cases he : t' = t
    · subst he
      rw [Function.update_self] at ht'
      simp at ht'
    · rw [Function.update_of_ne he] at ht'
      exact hi.paused t' wake ht'
  · intro t' ht'
    by_cases he : t' = t
    · subst he
      rw [Function.update_self] at ht'
      simp at ht'
    · rw [Function.update_of_ne he] at ht'
      exact hi.ready t' ht'
  · intro p hp
    obtain rfl := Option.some.inj hp
    rfl
  · intro p hp
    obtain rfl := Option.some.inj hp
    rw [hnew]
    exact ⟨rfl, rfl⟩
  · intro p hp
    obtain rfl := Option.some.inj hp
    rw [hnew]
    exact ⟨hi.ready t ht, Nat.le_refl _⟩
  · intro p hp
    obtain rfl := Option.some.inj hp
    rw [hnew]
    rfl
  · intro k hk hended
    by_cases he : k = w.issued
    · exact ⟨_, rfl, he.symm⟩
    · rw [hcall k he] at hended
      have hk' : k < w.issued := by
        have : k < w.issued + 1 := hk
        omega
      obtain ⟨p, hp, -⟩ := hi.ended k hk' hended
      rw [hpending] at hp
      exact absurd hp (by simp)
  · intro k time hk hs
    by_cases he : k = w.issued
    · rw [he, hnew] at hk
      simp [Call.issued] at hk
    · rw [hcall k he] at hk hs
      exact hi.late k time hk hs
  · intro k hk
    have hk' : w.issued + 1 ≤ k := hk
    rw [hcall k (by omega)]
    exact hi.unissued k (by omega)

theorem refuse (hi : Flight config w h) (ht : h t = .ready) (commandId : CommandId)
    (refs : CommandRefCounter) :
    Flight config ((w.issue commandId refs).modifyCall w.issued (fun c => c.finish .raised w.now)) h := by
  let refused := (w.issue commandId refs).modifyCall w.issued (fun c => c.finish .raised w.now)
  have hpending := hi.idle (Hold.holds_of_eq ht rfl) (by simp [ht])
  have hnone : ∀ p, refused.session.pending ≠ some p := by
    intro p hp
    have hp' : w.session.pending = some p := hp
    rw [hpending] at hp'
    simp at hp'
  have hcall : ∀ k, k ≠ w.issued → refused.calls k = w.calls k := by
    intro k hk
    simp [refused, World.modifyCall, World.issue, hk]
  have hnew : (refused.calls w.issued).ended = some (.raised, w.now) := by
    simp [refused, World.modifyCall, World.issue, Call.finish]
  refine ⟨hi.holder, hi.flying, hi.pending, hi.paused, hi.ready, ?_, ?_, ?_, ?_, ?_, ?_, ?_⟩
  · exact fun p hp => absurd hp (hnone p)
  · exact fun p hp => absurd hp (hnone p)
  · exact fun p hp => absurd hp (hnone p)
  · exact fun p hp => absurd hp (hnone p)
  · intro k hk hended
    by_cases he : k = w.issued
    · rw [he, hnew] at hended
      simp at hended
    · rw [hcall k he] at hended
      have hk' : k < w.issued + 1 := hk
      exact hi.ended k (by omega) hended
  · intro k time hk hs
    by_cases he : k = w.issued
    · rw [he, hnew] at hk
      simp at hk
    · rw [hcall k he] at hk hs
      exact hi.late k time hk hs
  · intro k hk
    have hk' : w.issued + 1 ≤ k := hk
    rw [hcall k (by omega)]
    exact hi.unissued k (by omega)

theorem finish {call : Nat} (hi : Flight config w h) (ht : h t = .flying call) (ending : Ending) :
    Flight config (w.endCall call ending (w.endReadyAt config call ending))
      (Function.update h t .locked) := by
  obtain ⟨p, hp, rfl⟩ := hi.flying t call ht
  have hholds : (h t).holds = true := by rw [ht]; rfl
  have hother : ∀ t', t' ≠ t → (h t').holds = false := by
    intro t' he
    by_contra hc
    exact he (hi.alone (by simpa using hc) hholds)
  have hlast := hi.last p hp
  have hbegan := hi.began p hp
  let done := w.endCall p.call ending (w.endReadyAt config p.call ending)
  have hcall : ∀ k, k ≠ p.call → done.calls k = w.calls k := by
    intro k hk
    simp [done, World.endCall, World.modifyCall, hk]
  have hdone : done.calls p.call = (w.calls p.call).finish ending w.now := by
    simp [done, World.endCall, World.modifyCall]
  have hready : w.session.readyAt ≤ w.endReadyAt config p.call ending := by
    unfold World.endReadyAt
    split
    · omega
    · split_ifs <;> omega
    · omega
    · omega
  constructor
  · intro t' ht'
    by_cases he : t' = t
    · subst he
      exact hi.holder t' hholds
    · rw [Function.update_of_ne he, hother t' he] at ht'
      simp at ht'
  · intro t' call ht'
    by_cases he : t' = t
    · subst he
      rw [Function.update_self] at ht'
      simp at ht'
    · rw [Function.update_of_ne he] at ht'
      have hc := hother t' he
      rw [ht'] at hc
      simp [Hold.holds] at hc
  · intro q hq
    exact absurd hq (by simp [World.endCall, World.modifyCall])
  · intro t' wake ht'
    by_cases he : t' = t
    · subst he
      rw [Function.update_self] at ht'
      simp at ht'
    · rw [Function.update_of_ne he] at ht'
      have hc := hother t' he
      rw [ht'] at hc
      simp [Hold.holds] at hc
  · intro t' ht'
    by_cases he : t' = t
    · subst he
      rw [Function.update_self] at ht'
      simp at ht'
    · rw [Function.update_of_ne he] at ht'
      have hc := hother t' he
      rw [ht'] at hc
      simp [Hold.holds] at hc
  · intro q hq
    exact absurd hq (by simp [World.endCall, World.modifyCall])
  · intro q hq
    exact absurd hq (by simp [World.endCall, World.modifyCall])
  · intro q hq
    exact absurd hq (by simp [World.endCall, World.modifyCall])
  · intro q hq
    exact absurd hq (by simp [World.endCall, World.modifyCall])
  · intro k hk hended
    by_cases he : k = p.call
    · subst he
      rw [hdone] at hended
      simp [Call.finish] at hended
    · rw [hcall k he] at hended
      obtain ⟨q, hq, hqk⟩ := hi.ended k hk hended
      rw [hp] at hq
      obtain rfl := Option.some.inj hq
      exact absurd hqk.symm he
  · intro k time hk hs
    show time + config.lateAnswerGrace ≤ w.endReadyAt config p.call ending
    by_cases he : k = p.call
    · subst he
      rw [hdone] at hk hs
      simp only [Call.finish, Option.some.injEq, Prod.mk.injEq] at hk hs
      obtain ⟨rfl, rfl⟩ := hk
      simp only [World.endReadyAt, hs, if_true]
      exact Nat.le_refl _
    · rw [hcall k he] at hk hs
      exact Nat.le_trans (hi.late k time hk hs) hready
  · intro k hk
    have hk' : w.issued ≤ k := hk
    rw [hcall k (by omega)]
    exact hi.unissued k hk'

theorem move {reopens : Prop} {h' : TaskId → Hold} (hm : Move config reopens (w, h) (w', h'))
    (hi : Flight config w h) : Flight config w' h' := by
  cases hm with
  | quiet hq => exact hi.quiet hq
  | connected hc => exact hi.congr rfl rfl rfl rfl (Nat.le_refl _) (fun _ => rfl) (fun _ _ => rfl)
  | take ht hfree hlock => exact hi.take ht hfree hlock
  | pause ht =>
    exact hi.reseat (by simp [ht]) (fun _ => hi.holder _ (Hold.holds_of_eq ht rfl)) (by simp)
      (fun _ hw => Hold.paused.inj hw) (by simp)
  | ready ht hr =>
    exact hi.reseat (by simp [ht]) (fun _ => hi.holder _ (Hold.holds_of_eq ht rfl)) (by simp) (by simp)
      (fun _ => hr)
  | wake ht hr =>
    refine hi.reseat (by simp [ht]) (fun _ => hi.holder _ (Hold.holds_of_eq ht rfl)) (by simp) (by simp) ?_
    intro _
    rw [hi.paused _ _ ht]
    exact hr
  | begin commandId ht hs hrefs => exact hi.issue ht commandId _
  | refuse commandId ht hs hrefs => exact hi.refuse ht commandId _
  | written ht =>
    refine hi.modifyCall _ ?_ ?_
    · rfl
    · exact fun _ => rfl
  | settle call hf =>
    refine hi.modifyCall _ ?_ ?_
    · rfl
    · exact fun _ => rfl
  | finish ending ht => exact hi.finish ht ending
  | leave ht =>
    rcases ht with ht | ht | ⟨wake, ht⟩
    · exact hi.release (Hold.holds_of_eq ht rfl) (by simp [ht])
    · exact hi.release (Hold.holds_of_eq ht rfl) (by simp [ht])
    · exact hi.release (Hold.holds_of_eq ht rfl) (by simp [ht])
  | @startReading w h t hs ht =>
    have hr := hi.reseat (t := t) (x := .reading) (by simp [ht]) (by simp [Hold.holds]) (by simp) (by simp) (by simp)
    exact hr.congr rfl rfl rfl rfl (Nat.le_refl _) (fun _ => rfl) (fun _ _ => rfl)
  | @gotRevision w h t firmware ht =>
    have hr := hi.reseat (t := t) (x := .outside) (by simp [ht]) (by simp [Hold.holds]) (by simp) (by simp) (by simp)
    exact hr.congr rfl rfl rfl rfl (Nat.le_refl _) (fun _ => rfl) (fun _ _ => rfl)
  | stopReading ht => exact hi.reseat (by simp [ht]) (by simp [Hold.holds]) (by simp) (by simp) (by simp)
  | close ht hs => exact hi.reseat (by simp [ht]) (by simp [Hold.holds]) (by simp) (by simp) (by simp)
  | stopClosing ht => exact hi.reseat (by simp [ht]) (by simp [Hold.holds]) (by simp) (by simp) (by simp)
  | tick ticks =>
    exact hi.congr rfl rfl rfl rfl (Nat.le_add_right _ _) (fun _ => rfl) (fun _ _ => rfl)

theorem complete {p : Pending} {origin : Option Nat} {r : Response} (hi : Flight config w' h)
    (hp : w.session.pending = some p) (hq : Quiet w w') :
    Flight config (w'.complete p.call origin r) h := by
  refine hi.modifyCall _ ?_ ?_
  · rfl
  · intro hk
    have hlast := hi.last p (hq.pending.trans hp)
    omega

theorem step {prim : Primitives} {l : Label} (hi : Flight config w w.hold)
    (hs : w.step config prim l = some w') : Flight config w' w'.hold :=
  step_preserves (I := Flight config) (fun hm hv => hv.move hm)
    (fun _ hq hc h₁ => h₁.complete hc.pending hq) hi hs

theorem reachable {prim : Primitives} {ls : List Label}
    (hr : exec (World.step config prim) (.new config) ls = some w) : Flight config w w.hold :=
  exec_invariant (I := fun w => Flight config w w.hold) (fun _ _ _ hi hs => hi.step hs) init hr

end Flight

end OnestiLock
