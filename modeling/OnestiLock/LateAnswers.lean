import Mathlib
import OnestiLock.Correlation

/-! Late answers under the static reference. A timeout holds the next command
back for the grace period; a cancellation does not. -/

namespace OnestiLock

open Transition

/-- All packets were written, and the exchange ended without its own answer. -/
def Call.Abandoned (c : Call) (time : Nat) : Prop :=
  c.written = true ∧ (c.ended = some (.timedOut, time) ∨ c.ended = some (.cancelled, time))

/-- No answer to an abandoned command completes a later one within the grace period. -/
def NoLateAnswer (config : SessionConfig) (w : World) : Prop :=
  ∀ j k arrival time, k < j → (w.calls j).completion = some ⟨some k, arrival⟩ →
    (w.calls k).Abandoned time → time + config.lateAnswerGrace < arrival

/-- An answer to an abandoned command that arrives within the grace period
comes after a timeout and before the very end of it, or finds no command
waiting that its response id fits. -/
def Harmless (config : SessionConfig) (w : World) : Label → Prop
  | .notify data (some k) => ∀ e ∈ (w.calls k).ended, (w.calls k).written = true →
      e.1 = .timedOut ∨ e.1 = .cancelled → w.now ≤ e.2 + config.lateAnswerGrace →
      (e.1 = .timedOut ∧ w.now < e.2 + config.lateAnswerGrace) ∨
      ∀ r ∈ w.arrived data, ∀ p ∈ w.session.pending, (w.calls p.call).future.isWaiting = true →
        r.responseId ≠ expectedResponseId p.commandId
  | _ => True

instance (config : SessionConfig) (w : World) (l : Label) : Decidable (Harmless config w l) := by
  unfold Harmless
  split <;> infer_instance

section

variable {config : SessionConfig} {w w' : World} {h h' : TaskId → Hold}

namespace NoLateAnswer

/-- One command's history changes, without a new completion; it is abandoned
only before any later command has been completed. -/
theorem update {call : Nat} {c : Call} (hi : NoLateAnswer config w)
    (hcalls : w'.calls = Function.update w.calls call c)
    (hc : c.completion = none ∨ c.completion = (w.calls call).completion)
    (ha : ∀ time, c.Abandoned time → (w.calls call).Abandoned time ∨
      ∀ j, call < j → (w.calls j).completion = none) : NoLateAnswer config w' := by
  intro j k arrival time hkj hcomplete habandoned
  rw [hcalls] at hcomplete habandoned
  have hold : (w.calls j).completion = some ⟨some k, arrival⟩ := by
    by_cases hj : j = call
    · subst hj
      rw [Function.update_self] at hcomplete
      rcases hc with hn | heq
      · rw [hn] at hcomplete
        simp at hcomplete
      · rwa [heq] at hcomplete
    · rwa [Function.update_of_ne hj] at hcomplete
  by_cases hk : k = call
  · subst hk
    rw [Function.update_self] at habandoned
    rcases ha time habandoned with hab | hnone
    · exact hi j k arrival time hkj hold hab
    · rw [hnone j hkj] at hold
      simp at hold
  · rw [Function.update_of_ne hk] at habandoned
    exact hi j k arrival time hkj hold habandoned

theorem congr (hi : NoLateAnswer config w) (hcalls : w'.calls = w.calls) : NoLateAnswer config w' := by
  intro j k arrival time hkj hcomplete habandoned
  rw [hcalls] at hcomplete habandoned
  exact hi j k arrival time hkj hcomplete habandoned

theorem not_abandoned_of_written {c : Call} {time : Nat} (hw : c.written = false) :
    ¬ c.Abandoned time := by
  rintro ⟨h, -⟩
  rw [hw] at h
  exact absurd h (by simp)

theorem not_abandoned_of_ended {c : Call} {time : Nat} (he : c.ended = none) : ¬ c.Abandoned time := by
  rintro ⟨-, h | h⟩ <;> rw [he] at h <;> exact absurd h (by simp)

theorem move {reopens : Prop} (hm : Move config reopens (w, h) (w', h')) (hflight : Flight config w h)
    (hi : NoLateAnswer config w) : NoLateAnswer config w' := by
  cases hm with
  | quiet hq => exact hi.congr hq.calls
  | begin commandId ht hs hrefs =>
    exact hi.update rfl (.inl rfl) (fun time ha => absurd ha (not_abandoned_of_ended rfl))
  | @refuse w h t refs commandId ht hs hrefs =>
    have hissue : NoLateAnswer config (w.issue commandId refs) :=
      hi.update rfl (.inl rfl) (fun time ha => absurd ha (not_abandoned_of_ended rfl))
    refine hissue.update rfl (.inr rfl) (fun time ha => absurd ha (not_abandoned_of_written ?_))
    simp [World.issue, Call.issued, Call.finish]
  | @written w h t call ht =>
    obtain ⟨p, hp, rfl⟩ := hflight.flying t call ht
    refine hi.update rfl (.inr rfl) (fun time ha => absurd ha (not_abandoned_of_ended ?_))
    exact hflight.running p hp
  | settle call hf => exact hi.update rfl (.inr rfl) (fun time ha => .inl ha)
  | @finish w h t call ending ht =>
    obtain ⟨p, hp, rfl⟩ := hflight.flying t call ht
    have hlast := hflight.last p hp
    refine hi.update rfl (.inr rfl) (fun time _ => .inr (fun j hj => ?_))
    exact (hflight.unissued j (by omega)).2
  | connected | take | pause | ready | wake | leave | startReading | gotRevision | stopReading
  | close | stopClosing | tick => exact hi.congr rfl

/-- The command in flight is completed, long after every timed-out one ended. -/
theorem complete {data : Bytes} {origin : Option Nat} {w₁ : World} {p : Pending}
    {r : Response} (hi : NoLateAnswer config w₁) (hflight : Flight config w w.hold)
    (hcount : Counted w w.hold) (hs : RefsAre true w) (hq : Quiet w w₁) (hc : Completes w data r p)
    (hg : Harmless config w (.notify data origin)) :
    NoLateAnswer config (w₁.complete p.call origin r) := by
  intro j k arrival time hkj hcomplete habandoned
  have hlast := hflight.last p hc.pending
  have hpstatic : p.staticRef = true := by
    rw [← (hflight.same p hc.pending).2]
    exact (hcount.call hs (show p.call < w.issued by omega)).1
  by_cases hk : k = p.call
  · subst hk
    refine absurd habandoned (not_abandoned_of_ended ?_)
    simpa [World.complete, World.modifyCall, hq.calls] using hflight.running p hc.pending
  · have hab : (w.calls k).Abandoned time := by
      simpa [World.complete, World.modifyCall, hk, hq.calls] using habandoned
    by_cases hj : j = p.call
    · subst hj
      have hcompletion : origin = some k ∧ w₁.now = arrival := by
        simpa [World.complete, World.modifyCall] using hcomplete
      obtain ⟨rfl, rfl⟩ := hcompletion
      rw [hq.now]
      by_contra hwindow
      have hended : ∃ e ∈ (w.calls k).ended, (e.1 = .timedOut ∨ e.1 = .cancelled) ∧ e.2 = time := by
        rcases hab.2 with he | he
        · exact ⟨_, he, .inl rfl, rfl⟩
        · exact ⟨_, he, .inr rfl, rfl⟩
      obtain ⟨⟨ending, time⟩, he, hending, rfl⟩ := hended
      rcases hg _ he hab.1 hending (by omega) with ⟨htimeout, hbefore⟩ | hfree
      · obtain rfl : ending = .timedOut := htimeout
        have hkstatic := (hcount.call hs (show k < w.issued by omega)).1
        have hgrace := hflight.late k time he hkstatic
        have hbegan := hflight.began p hc.pending
        omega
      · exact hfree r hc.arrives p hc.pending (by rw [hc.waiting]; rfl) (hc.id hpstatic)
    · have hold : (w₁.calls j).completion = some ⟨some k, arrival⟩ := by
        simpa [World.complete, World.modifyCall, hj] using hcomplete
      exact hi j k arrival time hkj hold (by rw [hq.calls]; exact hab)

theorem step {prim : Primitives} {l : Label} (hflight : Flight config w w.hold)
    (hcount : Counted w w.hold) (hi : RefsAre true w → NoLateAnswer config w)
    (hg : Harmless config w l) (hs : w.step config prim l = some w') :
    RefsAre true w' → NoLateAnswer config w' := by
  have hall : Flight config w' w'.hold ∧ Counted w' w'.hold ∧
      (RefsAre true w' → NoLateAnswer config w') := by
    refine step_preserves
      (I := fun v h => Flight config v h ∧ Counted v h ∧ (RefsAre true v → NoLateAnswer config v))
      ?_ ?_ ⟨hflight, hcount, hi⟩ hs
    · rintro v v' h h' hm ⟨hf, hc, hn⟩
      exact ⟨hf.move hm, hc.move hm, fun hr => (hn (hm.refsAre hc hr)).move hm hf⟩
    · rintro data origin w₁ p r rfl hq hc ⟨hf, hv, hn⟩
      refine ⟨hf.complete hc.pending hq, hv.modifyCall _ (fun _ => ⟨rfl, rfl⟩), fun hr => ?_⟩
      exact (hn hr).complete hflight hcount (fun v hv => hr v (hq.firmware.trans hv)) hq hc hg
  exact hall.2.2

end NoLateAnswer

end

/-- On firmware with the static reference, when every late answer is harmless,
none of them completes a later command. -/
theorem no_late_answer (config : SessionConfig) (prim : Primitives) {ls : List Label} {w : World}
    {firmware : FirmwareVersion} (hg : Along (World.step config prim) (Harmless config) (.new config) ls)
    (hr : exec (World.step config prim) (.new config) ls = some w)
    (hfirmware : w.session.firmware = some firmware) (hstatic : firmware.lt minFirmwareAdmin = true) :
    NoLateAnswer config w := by
  have hrefs : RefsAre true w := by
    intro v hv
    rw [← Option.some.inj (hfirmware.symm.trans hv)]
    exact hstatic
  have hinv : Flight config w w.hold ∧ Counted w w.hold ∧ (RefsAre true w → NoLateAnswer config w) := by
    refine exec_invariant_along
      (I := fun w => Flight config w w.hold ∧ Counted w w.hold ∧ (RefsAre true w → NoLateAnswer config w))
      ?_ ⟨Flight.init, Counted.init, ?_⟩ hg hr
    · rintro v l v' ⟨hflight, hcount, hi⟩ hl hs
      exact ⟨hflight.step hs, hcount.step hs, NoLateAnswer.step hflight hcount hi hl hs⟩
    · intro _ j k arrival time _ hcomplete
      simp [World.new, Call.issued] at hcomplete
  exact hinv.2.2 hrefs

namespace StaticRun

/-- What the lock sends for a response after the key exchange. -/
def encrypted (response : Bytes) : Bytes :=
  match deriveLinkKeys .scalarOne SessionConfig.scalarOne.keyPair.privateKey (encodePublicKey generator) with
  | .ok keys =>
    let sealed := keys.cipher.encrypt .scalarOne response
    [2, UInt8.ofNat sealed.length, 1, 0] ++ sealed
  | .error _ => []

def deviceName : Bytes := encrypted [0x33, 2, 16, 0, 65, 0]

/-- Firmware 4.6.5 connects, and a first DeviceNameGet is written whole. -/
def firstWritten : List Label :=
  [.connect 0, .resume 0 (.returned [52, 46, 54, 46, 53]), .resume 0 (.returned []),
    .resume 0 (.returned []),
    .notify ([1, 68, 1, 0, 1, 64, 16, 0] ++ encodePublicKey generator) (some 0),
    .resume 0 (.returned []), .tick 320, .send 1 ⟨.deviceNameGet, []⟩ false, .resume 1 (.returned [])]

/-- It times out, its answer comes half the grace period later, and the next
command waits out the rest. -/
def timedOut : List Label :=
  firstWritten ++ [.tick 20000, .expire 1, .resume 1 (.returned []),
    .send 2 ⟨.deviceNameGet, []⟩ false, .tick 10000, .notify deviceName (some 1), .tick 10000,
    .resume 2 (.returned [])]

/-- It is cancelled, the next one goes out at once, and the first answer arrives. -/
def cancelled : List Label :=
  firstWritten ++ [.cancel 1, .resume 1 (.returned []), .send 2 ⟨.deviceNameGet, []⟩ false,
    .resume 2 (.returned []), .notify deviceName (some 1)]

end StaticRun

open StaticRun in
theorem no_late_answer_timedOut : ∃ w,
    exec (World.step .scalarOne .scalarOne) (.new .scalarOne) timedOut = some w ∧ w.issued = 3 ∧
      NoLateAnswer .scalarOne w := by
  have hend : (exec (World.step .scalarOne .scalarOne) (.new .scalarOne) timedOut).map
      (fun w => (w.session.firmware, w.issued)) = some (some ⟨4, 6, 5⟩, 3) := by decide +kernel
  obtain ⟨w, hw, heq⟩ := Option.map_eq_some_iff.mp hend
  obtain ⟨hfirmware, hissued⟩ := Prod.mk.inj heq
  have hg : Along (World.step .scalarOne .scalarOne) (Harmless .scalarOne) (.new .scalarOne) timedOut := by
    decide +kernel
  exact ⟨w, hw, hissued, no_late_answer .scalarOne .scalarOne hg hw hfirmware (by decide)⟩

open StaticRun in
theorem cancelled_answer_completes_next :
    ¬ ∀ (config : SessionConfig) (prim : Primitives) (ls : List Label) (w : World)
      (firmware : FirmwareVersion), exec (World.step config prim) (.new config) ls = some w →
      w.session.firmware = some firmware → firmware.lt minFirmwareAdmin = true →
      NoLateAnswer config w := by
  intro h
  have hend : (exec (World.step .scalarOne .scalarOne) (.new .scalarOne) cancelled).map
      (fun w => (w.session.firmware, (w.calls 2).completion, (w.calls 1).written, (w.calls 1).ended)) =
      some (some ⟨4, 6, 5⟩, some ⟨some 1, 320⟩, true, some (.cancelled, 320)) := by decide +kernel
  obtain ⟨w, hw, heq⟩ := Option.map_eq_some_iff.mp hend
  simp only [Prod.mk.injEq] at heq
  obtain ⟨hfirmware, hcomplete, hwritten, hended⟩ := heq
  have hlate := h .scalarOne .scalarOne cancelled w _ hw hfirmware (by decide) 2 1 320 320 (by decide)
    hcomplete ⟨hwritten, .inr hended⟩
  exact absurd hlate (by decide)

end OnestiLock
