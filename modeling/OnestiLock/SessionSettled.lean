import OnestiLock.Notification
import OnestiLock.SessionClosed
import OnestiLock.SessionSecrecy

/-! One command in flight at a time, settled when its exchange ends, and what a
close leaves of it. -/

namespace OnestiLock

open Transition

/-- An exchange that has ended has settled its future. -/
def EndedSettled (w : World) : Prop :=
  ∀ k, (w.calls k).ended ≠ none → (w.calls k).future.isWaiting = false

section

variable {config : SessionConfig} {prim : Primitives} {w w' : World}

theorem isWaiting_settled {c : Call} {f : Future} (h : c.future.isWaiting = false) :
    (if c.future.isWaiting then f else c.future).isWaiting = false := by
  rw [h]
  exact h

theorem Call.finish_settled (c : Call) (ending : Ending) (time : Nat) :
    (c.finish ending time).future.isWaiting = false := by
  by_cases hw : c.future.isWaiting = true
  · simp only [finish, hw, if_true]
    rfl
  · simp [finish, hw]

theorem EndedSettled.modifyCall (hi : EndedSettled w) (call : Nat) {f : Call → Call}
    (hf : (f (w.calls call)).ended ≠ none → ((w.calls call).ended ≠ none →
      (w.calls call).future.isWaiting = false) → (f (w.calls call)).future.isWaiting = false) :
    EndedSettled (w.modifyCall call f) := by
  intro k hk
  by_cases he : k = call
  · subst he
    simp only [World.modifyCall, Function.update_self] at hk ⊢
    exact hf hk (hi k)
  · simp only [World.modifyCall, Function.update_of_ne he] at hk ⊢
    exact hi k hk

theorem EndedSettled.issue (hi : EndedSettled w) (commandId : CommandId) (refs : CommandRefCounter) :
    EndedSettled (w.issue commandId refs) := by
  intro k hk
  by_cases he : k = w.issued
  · simp [World.issue, he, Call.issued] at hk
  · simp only [World.issue, Function.update_of_ne he] at hk ⊢
    exact hi k hk

theorem EndedSettled.congr (hi : EndedSettled w) (hcalls : w'.calls = w.calls) : EndedSettled w' := by
  intro k hk
  rw [hcalls] at hk ⊢
  exact hi k hk

theorem EndedSettled.move {reopens : Prop} {h h' : TaskId → Hold}
    (hm : Move config reopens (w, h) (w', h')) (hi : EndedSettled w) : EndedSettled w' := by
  cases hm with
  | quiet hq => exact hi.congr hq.calls
  | begin commandId ht hs hrefs => exact (hi.issue commandId _).congr rfl
  | refuse commandId ht hs hrefs =>
    exact (hi.issue commandId _).modifyCall _ (fun _ _ => Call.finish_settled _ _ _)
  | written ht => exact hi.modifyCall _ (fun hk hsettled => hsettled hk)
  | settle call hf => exact hi.modifyCall _ (fun hk hsettled => isWaiting_settled (hsettled hk))
  | @finish w h t call ending ht =>
    let cleared : World := { w with session := { w.session with
      pending := none, readyAt := w.endReadyAt config call ending } }
    have hcleared : EndedSettled cleared := hi.congr rfl
    refine hcleared.modifyCall call ?_
    exact fun _ _ => Call.finish_settled _ _ _
  | connected | take | pause | ready | wake | leave | startReading | gotRevision | stopReading
  | close | stopClosing | tick => exact hi.congr rfl

theorem EndedSettled.step {l : Label} (hi : EndedSettled w) (hs : w.step config prim l = some w') :
    EndedSettled w' := by
  refine step_preserves (I := fun v _ => EndedSettled v) (fun hm hv => hv.move hm) ?_ hi hs
  intro data origin w₁ p r _ _ _ h₁
  refine h₁.modifyCall p.call ?_
  exact fun _ _ => rfl

theorem EndedSettled.reachable {ls : List Label}
    (hr : exec (World.step config prim) (.new config) ls = some w) : EndedSettled w := by
  refine exec_invariant (I := EndedSettled) (fun _ _ _ hi hs => hi.step hs) ?_ hr
  intro k hk
  simp [World.new, Call.issued] at hk

end

/-- One command at a time between taking its reference and the end of its
exchange: the pending one. -/
structure SingleFlight (w : World) : Prop where
  pending : ∀ k < w.issued, (w.calls k).ended = none ↔ ∃ p, w.session.pending = some p ∧ p.call = k
  alone : ∀ j < w.issued, ∀ k < w.issued, (w.calls j).ended = none → (w.calls k).ended = none → j = k
  owner : ∀ p, w.session.pending = some p → ∃ t, w.hold t = .flying p.call ∧
    ∀ u, (w.hold u).holds = true → u = t
  settled : ∀ k < w.issued, (w.calls k).ended ≠ none → (w.calls k).future.isWaiting = false

theorem singleFlight_of_reachable {config : SessionConfig} {prim : Primitives} {ls : List Label} {w : World}
    (hr : exec (World.step config prim) (.new config) ls = some w) : SingleFlight w := by
  have hflight : Flight config w w.hold := Flight.reachable hr
  have hpending : ∀ k < w.issued, (w.calls k).ended = none ↔
      ∃ p, w.session.pending = some p ∧ p.call = k := by
    intro k hk
    constructor
    · exact hflight.ended k hk
    · rintro ⟨p, hp, rfl⟩
      exact hflight.running p hp
  refine ⟨hpending, ?_, ?_, ?_⟩
  · intro j hj k hk hjended hkended
    obtain ⟨p, hp, rfl⟩ := (hpending j hj).mp hjended
    obtain ⟨q, hq, rfl⟩ := (hpending k hk).mp hkended
    rw [hp] at hq
    rw [Option.some.inj hq]
  · intro p hp
    obtain ⟨t, ht⟩ := hflight.pending p hp
    exact ⟨t, ht, fun u hu => hflight.alone hu (Hold.holds_of_eq ht rfl)⟩
  · exact fun k _ hk => EndedSettled.reachable hr k hk

/-- One turn leaves alone every command but the one it runs: the pending slot
is cleared by the end of its own exchange only, and an ended command is over. -/
structure KeepsOthers (w w' : World) : Prop where
  pending : ∀ p, w.session.pending = some p → (w'.calls p.call).ended = none →
    ∃ p', w'.session.pending = some p' ∧ p'.call = p.call
  cleared : ∀ k < w.issued, (w'.calls k).ended ≠ none → ∀ p, w'.session.pending = some p → p.call ≠ k
  ended : ∀ k < w.issued, (w.calls k).ended ≠ none →
    (w'.calls k).ended ≠ none ∧ (w'.calls k).future = (w.calls k).future

section

variable {config : SessionConfig} {prim : Primitives} {w w' : World}

theorem keepsOthers_of_step {ls : List Label} {l : Label}
    (hr : exec (World.step config prim) (.new config) ls = some w)
    (hs : w.step config prim l = some w') : KeepsOthers w w' := by
  have hr' : exec (World.step config prim) (.new config) (ls ++ [l]) = some w' :=
    exec_append.mpr ⟨w, hr, exec_cons.mpr ⟨w', hs, rfl⟩⟩
  have hflight : Flight config w w.hold := Flight.reachable hr
  have hflight' : Flight config w' w'.hold := Flight.reachable hr'
  obtain ⟨-, hgrows⟩ := (Secret.reachable hr).step_grows hs
  refine ⟨?_, ?_, ?_⟩
  · intro p hp hended
    have hlast := hflight.last p hp
    have hissued := hgrows.issued
    exact hflight'.ended p.call (by omega) hended
  · rintro k - hended p hp rfl
    exact hended (hflight'.running p hp)
  · intro k hk hended
    have hkept : Kept k (w.calls k).future w := ⟨hk, rfl⟩
    have hsettled := EndedSettled.reachable hr k hended
    exact ⟨hgrows.ended k hk hended, (hkept.step hs hsettled).same⟩

/-! A close settles everything. -/

/-- While the session is closed, the command in flight has its outcome. -/
def ClosedSettled (w : World) : Prop := w.session.state = .closed → PendingSettled w

theorem closedSettled_step {ls : List Label} {l : Label} (hi : ClosedSettled w)
    (hr : exec (World.step config prim) (.new config) ls = some w)
    (hs : w.step config prim l = some w') : ClosedSettled w' := by
  have hsecret := Secret.reachable hr
  have hturn := step_turn hsecret.linked hsecret.tasks hs
  intro hclosed
  rcases hturn.closed hclosed with hwas | hsettled
  · intro p hp
    have hr' : exec (World.step config prim) (.new config) (ls ++ [l]) = some w' :=
      exec_append.mpr ⟨w, hr, exec_cons.mpr ⟨w', hs, rfl⟩⟩
    have hflight : Flight config w w.hold := Flight.reachable hr
    have hflight' : Flight config w' w'.hold := Flight.reachable hr'
    have hnot : ¬ Reopens config prim w l := by
      intro hre
      have hconnected := step_reopens hre hs
      simp [Session.connected, hclosed] at hconnected
    obtain ⟨-, hissued⟩ := step_closed hnot hs hwas
    have hlast := hflight'.last p hp
    have hcall : p.call < w.issued := by omega
    have hrunning : (w.calls p.call).ended = none := by
      by_contra hended
      obtain ⟨hstill, -⟩ := (keepsOthers_of_step hr hs).ended p.call hcall hended
      exact hstill (hflight'.running p hp)
    obtain ⟨q, hq, hqp⟩ := hflight.ended p.call hcall hrunning
    have hdone : (w.calls p.call).future.isWaiting = false := hqp ▸ hi hwas q hq
    have hkept : Kept p.call (w.calls p.call).future w := ⟨hcall, rfl⟩
    rw [(hkept.step hs hdone).same]
    exact hdone
  · exact hsettled

theorem closedSettled_of_reachable {ls : List Label}
    (hr : exec (World.step config prim) (.new config) ls = some w) : ClosedSettled w := by
  induction ls using List.reverseRecOn generalizing w with
  | nil =>
    obtain rfl := Option.some.inj hr
    intro hclosed
    exact absurd hclosed (by simp [World.new, Session.new])
  | append_singleton ls l ih =>
    obtain ⟨v, hv, hw⟩ := exec_append.mp hr
    obtain ⟨w', hs, hend⟩ := exec_cons.mp hw
    obtain rfl := Option.some.inj hend
    exact closedSettled_step (ih hv) hv hs

theorem done_of_closed {ls : List Label}
    (hr : exec (World.step config prim) (.new config) ls = some w) (hclosed : w.session.state = .closed)
    {k : Nat} (hk : k < w.issued) : (w.calls k).future.isWaiting = false := by
  have hsingle := singleFlight_of_reachable hr
  by_cases hended : (w.calls k).ended = none
  · obtain ⟨p, hp, rfl⟩ := (hsingle.pending k hk).mp hended
    exact closedSettled_of_reachable hr hclosed p hp
  · exact hsingle.settled k hk hended

/-! A command whose future is done ends with its writes. -/

/-- The exchange is over, and so is its command. -/
def Over (out : World × Progress) (call : Nat) : Prop :=
  (∃ result, out.2 = .ended result) ∧ (out.1.calls call).ended ≠ none

theorem endCall_over (ending : Ending) (readyAt call : Nat) (result : Except Exn Response) :
    Over ((w.endCall call ending readyAt).leave result) call := by
  refine ⟨⟨result, rfl⟩, ?_⟩
  simp [World.leave, World.endCall, World.modifyCall, Call.finish]

theorem awaitAnswer_over (config : SessionConfig) (command : CommandPayload) {call : Nat}
    (hdone : (w.calls call).future.isWaiting = false) :
    Over (w.awaitAnswer config command call) call := by
  unfold World.awaitAnswer
  split
  · rename_i hwaiting
    rw [hwaiting] at hdone
    exact absurd hdone (by simp [Future.isWaiting])
  · exact endCall_over _ _ _ _
  · exact endCall_over _ _ _ _
  · exact endCall_over _ _ _ _

theorem interruptExchange_over {t : TaskId} {command : CommandPayload} {await : Await} {call : Nat}
    (interrupt : Interrupt) (hcall : await.call? = some call) :
    Over (w.interruptExchange config t command interrupt await) call := by
  cases await with
  | acquiring => simp [Await.call?] at hcall
  | pausing wake => simp [Await.call?] at hcall
  | writing call' rest =>
    obtain rfl := Option.some.inj hcall
    cases interrupt <;> exact endCall_over _ _ _ _
  | answering call' =>
    obtain rfl := Option.some.inj hcall
    cases interrupt <;> exact endCall_over _ _ _ _

/-- Turns left to an exchange that needs no more than its writes. -/
def Await.turns : Await → Nat
  | acquiring | pausing _ => 0
  | writing _ rest => rest.length + 1
  | answering _ => 1

/-- Without a throw, too, unless there is one more packet to write. -/
theorem resumeExchange_done (config : SessionConfig) (t : TaskId) (command : CommandPayload)
    {await : Await} {call : Nat} (hcall : await.call? = some call)
    (hdone : (w.calls call).future.isWaiting = false) (reply : Reply) :
    ∃ out, w.resumeExchange config t command reply await = some out ∧
      (Over out call ∨
        ∃ await', out.2 = .suspended await' ∧ await'.call? = some call ∧ await'.turns < await.turns) := by
  cases await with
  | acquiring => simp [Await.call?] at hcall
  | pausing wake => simp [Await.call?] at hcall
  | writing call' rest =>
    obtain rfl := Option.some.inj hcall
    cases reply with
    | raised e => exact ⟨_, rfl, .inl (endCall_over _ _ _ _)⟩
    | returned raw =>
      refine ⟨_, rfl, ?_⟩
      cases rest with
      | nil =>
        let written := w.modifyCall call' (fun c => { c with written := true })
        have hwritten : (written.calls call').future.isWaiting = false := by
          simpa [written, World.modifyCall] using hdone
        exact .inl (awaitAnswer_over config command hwritten)
      | cons frame rest =>
        refine .inr ⟨.writing call' rest, rfl, rfl, ?_⟩
        simp [Await.turns]
  | answering call' =>
    obtain rfl := Option.some.inj hcall
    exact ⟨_, by simp [World.resumeExchange, hdone], .inl (awaitAnswer_over config command hdone)⟩

theorem modelProgress_ended {t : TaskId} {k : Nat} (out : World × Progress) (hk : k < out.1.issued)
    (h : (out.1.calls k).ended ≠ none) : ((World.modelProgress t out).calls k).ended ≠ none := by
  obtain ⟨v, await | result⟩ := out
  · exact h
  · cases hresult : (result >>= fun r => liftBle (parseDeviceModel r) : Except Exn Nat) with
    | error e =>
      simp only [World.modelProgress, hresult]
      exact closeSession_steady.grows.ended k hk h
    | ok model =>
      simp only [World.modelProgress, hresult]
      exact h

theorem progress_ended {t : TaskId} {caller : Caller} {command : CommandPayload} {k : Nat}
    (out : World × Progress) (hk : k < out.1.issued) (h : (out.1.calls k).ended ≠ none) :
    ((World.progress config prim t caller command out).calls k).ended ≠ none := by
  cases caller with
  | send => obtain ⟨v, await | result⟩ := out <;> exact h
  | connectModel => exact modelProgress_ended out hk h
  | connectKey firmware =>
    obtain ⟨v, await | result⟩ := out
    · exact h
    · cases hkeys : (result >>= linkKeysOf config prim : Except Exn LinkKeys) with
      | error e =>
        simp only [World.progress, World.keyProgress, hkeys]
        exact closeSession_steady.grows.ended k hk h
      | ok keys =>
        simp only [World.progress, World.keyProgress, hkeys]
        split_ifs
        · exact h
        · have hmodel : Stretch (v.setLinkKeys prim keys) deviceModelGet
              ((v.setLinkKeys prim keys).exchange config t deviceModelGet) := exchange_stretch t
          have hissued : k < (v.setLinkKeys prim keys).issued := hk
          exact modelProgress_ended _ (Nat.lt_of_lt_of_le hissued hmodel.grows.issued)
            (hmodel.grows.ended k hissued h)

theorem AwaitsFramed.call_issued {command : CommandPayload} {await : Await} {call : Nat}
    (h : AwaitsFramed w command await) (hcall : await.call? = some call) : call < w.issued := by
  cases await with
  | acquiring => simp [Await.call?] at hcall
  | pausing wake => simp [Await.call?] at hcall
  | writing call' rest =>
    obtain rfl := Option.some.inj hcall
    exact h.issued
  | answering call' =>
    obtain rfl := Option.some.inj hcall
    exact h.issued

theorem resume_done {t : TaskId} {caller : Caller} {command : CommandPayload} {await : Await} {call : Nat}
    (hframed : TasksFramed w) (ht : w.tasks t = some (.exchanging caller command await))
    (hcall : await.call? = some call) (hdone : (w.calls call).future.isWaiting = false) (reply : Reply) :
    ∃ w', w.step config prim (.resume t reply) = some w' ∧
      ((w'.calls call).ended ≠ none ∧
          (caller = .send → ∃ result, w'.tasks t = some (.finished result)) ∨
        ∃ await', w'.tasks t = some (.exchanging caller command await') ∧ await'.call? = some call ∧
          await'.turns < await.turns) := by
  obtain ⟨hawait, hcommand⟩ := hframed t caller command await ht
  let v := w.consumeInterrupt t
  have hgrows : Grows w v := .of_calls rfl rfl rfl rfl
  have hissued : call < v.issued := hawait.call_issued hcall
  have hover : ∀ out, Stretch v command out → Over out call →
      ((World.progress config prim t caller command out).calls call).ended ≠ none ∧
        (caller = .send →
          ∃ result, (World.progress config prim t caller command out).tasks t = some (.finished result)) := by
    rintro ⟨v', progress⟩ hstretch ⟨⟨result, rfl⟩, hended⟩
    refine ⟨progress_ended _ (Nat.lt_of_lt_of_le hissued hstretch.grows.issued) hended, ?_⟩
    rintro rfl
    exact ⟨result.map some, by simp [World.progress, World.sendProgress, World.finish, World.setTask]⟩
  cases hi : w.interrupts t with
  | some i =>
    refine ⟨World.progress config prim t caller command (v.interruptExchange config t command i await),
      ?_, .inl (hover _ (interruptExchange_stretch t i await) (interruptExchange_over i hcall))⟩
    simp [World.step, World.resume, World.resumeTask, ht, hi, v]
  | none =>
    have hdone' : (v.calls call).future.isWaiting = false := hdone
    obtain ⟨out, hout, hnext⟩ := resumeExchange_done config t command hcall hdone' reply
    have hstretch : Stretch v command out := resumeExchange_stretch (hgrows.awaitsFramed hawait) hout
    refine ⟨World.progress config prim t caller command out, ?_, ?_⟩
    · simp only [World.step, World.resume, ht, hi, Option.bind_some, World.resumeTask,
        Option.isSome_none, Bool.false_eq_true, if_false]
      rw [show (w.consumeInterrupt t).resumeExchange config t command reply await = some out from hout]
      rfl
    · rcases hnext with hended | ⟨await', hsuspended, hcall', hturns⟩
      · exact .inl (hover out hstretch hended)
      · refine .inr ⟨await', ?_, hcall', hturns⟩
        obtain ⟨out', progress⟩ := out
        obtain rfl : progress = .suspended await' := hsuspended
        cases caller with
        | send => simp [World.progress, World.sendProgress, World.setTask]
        | connectKey firmware => simp [World.progress, World.keyProgress, World.setTask]
        | connectModel =>
          obtain rfl : command = deviceModelGet := hcommand
          simp [World.progress, World.modelProgress, World.setTask]

end

end OnestiLock
