import OnestiLock.FramingRoundTrip
import OnestiLock.SessionTurns

/-! What a stretch of `_exchange` writes, and what it leaves alone. -/

namespace OnestiLock

/-- The command a coroutine has in flight here. -/
def Await.call? : Await → Option Nat
  | acquiring | pausing _ => none
  | writing call _ | answering call => some call

/-- A packet of a command: of the key exchange, or cut from the command's bytes
encrypted once, whole, by the stream's cipher. -/
def Framed (w : World) (call : Nat) (frame : Bytes) : Prop :=
  (w.calls call).commandId ≠ .exchangeKeyPubM → ∃ cipher payload raw frames,
    w.session.stream.cipher = some cipher ∧
    Command.toBytes ⟨(w.calls call).commandId, (w.calls call).commandRef, payload, 0⟩ = .ok raw ∧
    (packetize (cipher.encrypt raw) true w.session.stream.mtu >>= List.mapM Packet.toBytes) =
      .ok frames ∧ frame ∈ frames

/-- Commands keep their ids, references, answers and ends, and a cipher once set stays. -/
structure Grows (w w' : World) : Prop where
  issued : w.issued ≤ w'.issued
  commands : ∀ k < w.issued, (w'.calls k).commandId = (w.calls k).commandId ∧
    (w'.calls k).commandRef = (w.calls k).commandRef
  answered : ∀ k < w.issued, ∀ r, (w.calls k).future = .answered r → (w'.calls k).future = .answered r
  ended : ∀ k < w.issued, (w.calls k).ended ≠ none → (w'.calls k).ended ≠ none
  cipher : ∀ cipher, w.session.stream.cipher = some cipher → w'.session.stream.cipher = some cipher
  mtu : w'.session.stream.mtu = w.session.stream.mtu

namespace Grows

variable {w w' w'' : World}

theorem refl (w : World) : Grows w w :=
  ⟨Nat.le_refl _, fun _ _ => ⟨rfl, rfl⟩, fun _ _ _ h => h, fun _ _ h => h, fun _ h => h, rfl⟩

theorem trans (h : Grows w w') (h' : Grows w' w'') : Grows w w'' := by
  refine ⟨Nat.le_trans h.issued h'.issued, ?_, ?_, ?_, ?_, h'.mtu.trans h.mtu⟩
  · intro k hk
    obtain ⟨hid, href⟩ := h.commands k hk
    obtain ⟨hid', href'⟩ := h'.commands k (Nat.lt_of_lt_of_le hk h.issued)
    exact ⟨hid'.trans hid, href'.trans href⟩
  · intro k hk r hr
    exact h'.answered k (Nat.lt_of_lt_of_le hk h.issued) r (h.answered k hk r hr)
  · intro k hk hended
    exact h'.ended k (Nat.lt_of_lt_of_le hk h.issued) (h.ended k hk hended)
  · exact fun cipher hc => h'.cipher cipher (h.cipher cipher hc)

theorem of_calls (hcalls : w'.calls = w.calls) (hissued : w'.issued = w.issued)
    (hcipher : w'.session.stream.cipher = w.session.stream.cipher)
    (hmtu : w'.session.stream.mtu = w.session.stream.mtu) : Grows w w' :=
  ⟨Nat.le_of_eq hissued.symm, fun k _ => by rw [hcalls]; exact ⟨rfl, rfl⟩,
    fun k _ r hr => by rw [hcalls]; exact hr, fun k _ h => by rw [hcalls]; exact h,
    fun cipher hc => hcipher.trans hc, hmtu⟩

theorem modifyCall (w : World) (call : Nat) {f : Call → Call}
    (hf : ∀ c, (f c).commandId = c.commandId ∧ (f c).commandRef = c.commandRef)
    (ha : ∀ r, (w.calls call).future = .answered r → (f (w.calls call)).future = .answered r)
    (he : ∀ c, c.ended ≠ none → (f c).ended ≠ none) : Grows w (w.modifyCall call f) := by
  refine ⟨Nat.le_refl _, ?_, ?_, ?_, fun _ h => h, rfl⟩
  · intro k _
    by_cases hk : k = call
    · subst hk
      simpa [World.modifyCall] using hf _
    · simp [World.modifyCall, hk]
  · intro k _ r hr
    by_cases hk : k = call
    · subst hk
      simpa [World.modifyCall] using ha r hr
    · simpa [World.modifyCall, hk] using hr
  · intro k _ hended
    by_cases hk : k = call
    · subst hk
      simpa [World.modifyCall] using he _ hended
    · simpa [World.modifyCall, hk] using hended

theorem answered_of_settled {c : Call} {f : Future} {r : Response} (h : c.future = .answered r) :
    (if c.future.isWaiting then f else c.future) = .answered r := by
  simp [h, Future.isWaiting]

theorem settle (w : World) (call : Nat) (future : Future) : Grows w (w.settle call future) :=
  .modifyCall w call (fun _ => ⟨rfl, rfl⟩) (fun _ hr => answered_of_settled hr) (fun _ h => h)

theorem finish (w : World) (call : Nat) (ending : Ending) (time : Nat) :
    Grows w (w.modifyCall call fun c => c.finish ending time) :=
  .modifyCall w call (fun _ => ⟨rfl, rfl⟩) (fun _ hr => answered_of_settled hr)
    (fun _ _ => by simp [Call.finish])

theorem issue (w : World) (commandId : CommandId) (refs : CommandRefCounter) :
    Grows w (w.issue commandId refs) := by
  refine ⟨Nat.le_succ _, ?_, ?_, ?_, fun _ h => h, rfl⟩
  · intro k hk
    have hne : k ≠ w.issued := Nat.ne_of_lt hk
    simp [World.issue, hne]
  · intro k hk r hr
    have hne : k ≠ w.issued := Nat.ne_of_lt hk
    simpa [World.issue, hne] using hr
  · intro k hk hended
    have hne : k ≠ w.issued := Nat.ne_of_lt hk
    simpa [World.issue, hne] using hended

theorem framed (h : Grows w w') {call : Nat} {frame : Bytes} (hcall : call < w.issued)
    (hf : Framed w call frame) : Framed w' call frame := by
  obtain ⟨hid, href⟩ := h.commands call hcall
  intro hne
  rw [hid] at hne
  obtain ⟨cipher, payload, raw, frames, hcipher, hraw, hframes, hmem⟩ := hf hne
  refine ⟨cipher, payload, raw, frames, h.cipher cipher hcipher, ?_, ?_, hmem⟩
  · rw [hid, href]
    exact hraw
  · rw [h.mtu]
    exact hframes

end Grows

/-- A stretch of `_exchange` for one command, from `w`. -/
structure Stretch (w : World) (command : CommandPayload) (out : World × Progress) : Prop where
  tasks : out.1.tasks = w.tasks
  interrupts : out.1.interrupts = w.interrupts
  stream : out.1.session.stream = w.session.stream
  linkKeys : out.1.session.linkKeys = w.session.linkKeys
  state : out.1.session.state = w.session.state
  now : out.1.now = w.now
  grows : Grows w out.1
  writes : ∀ kf ∈ out.1.writes, kf ∈ w.writes ∨ kf.1 < out.1.issued ∧ Framed out.1 kf.1 kf.2
  rest : ∀ call rest, out.2 = .suspended (.writing call rest) → ∀ f ∈ rest, Framed out.1 call f
  flying : ∀ await call, out.2 = .suspended await → await.call? = some call →
    call < out.1.issued ∧ (out.1.calls call).commandId = command.commandId

/-- The call in flight belongs to the command, and its packets are framed. -/
structure Flies (w : World) (command : CommandPayload) (call : Nat) (frames : List Bytes) : Prop where
  issued : call < w.issued
  commandId : (w.calls call).commandId = command.commandId
  framed : ∀ f ∈ frames, Framed w call f

section

variable {config : SessionConfig} {w w' : World} {command : CommandPayload} {call : Nat}

theorem Grows.flies {frames : List Bytes} (h : Grows w w') (hf : Flies w command call frames) :
    Flies w' command call frames :=
  ⟨Nat.lt_of_lt_of_le hf.issued h.issued, (h.commands call hf.issued).1.trans hf.commandId,
    fun f hm => h.framed hf.issued (hf.framed f hm)⟩

theorem Stretch.after {out : World × Progress} (hgrows : Grows w w') (htasks : w'.tasks = w.tasks)
    (hinterrupts : w'.interrupts = w.interrupts) (hwrites : w'.writes = w.writes)
    (hnow : w'.now = w.now) (hstream : w'.session.stream = w.session.stream)
    (hkeys : w'.session.linkKeys = w.session.linkKeys) (hstate : w'.session.state = w.session.state)
    (h : Stretch w' command out) : Stretch w command out where
  tasks := h.tasks.trans htasks
  interrupts := h.interrupts.trans hinterrupts
  stream := h.stream.trans hstream
  linkKeys := h.linkKeys.trans hkeys
  state := h.state.trans hstate
  now := h.now.trans hnow
  grows := hgrows.trans h.grows
  writes := by
    rw [← hwrites]
    exact h.writes
  rest := h.rest
  flying := h.flying

theorem leave_stretch (result : Except Exn Response) : Stretch w command (w.leave result) where
  tasks := rfl
  interrupts := rfl
  stream := rfl
  linkKeys := rfl
  state := rfl
  now := rfl
  grows := .of_calls rfl rfl rfl rfl
  writes kf h := .inl h
  rest call rest h := by simp [World.leave] at h
  flying await call h := by simp [World.leave] at h

theorem endCall_grows (ending : Ending) (readyAt : Nat) : Grows w (w.endCall call ending readyAt) := by
  let cleared : World :=
    { w with session := { w.session with pending := none, readyAt := readyAt } }
  have hcleared : Grows w cleared := .of_calls rfl rfl rfl rfl
  exact hcleared.trans (.finish cleared call ending w.now)

theorem endCall_leave_stretch (ending : Ending) (readyAt : Nat) (result : Except Exn Response) :
    Stretch w command ((w.endCall call ending readyAt).leave result) :=
  .after (endCall_grows ending readyAt) rfl rfl rfl rfl rfl rfl rfl (leave_stretch result)

theorem suspended_stretch {await : Await}
    (hcall : ∀ call, await.call? = some call → call < w.issued ∧
      (w.calls call).commandId = command.commandId)
    (hrest : ∀ call rest, await = .writing call rest → ∀ f ∈ rest, Framed w call f) :
    Stretch w command (w, .suspended await) where
  tasks := rfl
  interrupts := rfl
  stream := rfl
  linkKeys := rfl
  state := rfl
  now := rfl
  grows := .refl w
  writes kf h := .inl h
  rest call rest h := hrest call rest (Progress.suspended.inj h)
  flying await' call h hc := by
    obtain rfl := Progress.suspended.inj h
    exact hcall call hc

theorem awaitAnswer_stretch (hf : Flies w command call []) :
    Stretch w command (w.awaitAnswer config command call) := by
  unfold World.awaitAnswer
  split
  · refine suspended_stretch ?_ ?_
    · intro call' hc
      obtain rfl := Option.some.inj hc
      exact ⟨hf.issued, hf.commandId⟩
    · exact fun call' rest h => by simp at h
  · exact endCall_leave_stretch _ _ _
  · exact endCall_leave_stretch _ _ _
  · exact endCall_leave_stretch _ _ _

theorem writeNext_stretch {frames : List Bytes} (hf : Flies w command call frames) :
    Stretch w command (w.writeNext config command call frames) := by
  cases frames with
  | nil =>
    have hgrows : Grows w (w.modifyCall call fun c => { c with written := true }) :=
      .modifyCall w call (fun _ => ⟨rfl, rfl⟩) (fun _ hr => hr) (fun _ h => h)
    exact .after hgrows rfl rfl rfl rfl rfl rfl rfl (awaitAnswer_stretch (hgrows.flies hf))
  | cons frame rest =>
    have hgrows : Grows w { w with writes := w.writes ++ [(call, frame)] } := .of_calls rfl rfl rfl rfl
    have hframed := (hgrows.flies hf).framed
    refine ⟨rfl, rfl, rfl, rfl, rfl, rfl, hgrows, ?_, ?_, ?_⟩
    · intro kf hkf
      rcases List.mem_append.mp hkf with hold | hnew
      · exact .inl hold
      · obtain rfl := List.mem_singleton.mp hnew
        exact .inr ⟨hf.issued, hframed frame (by simp)⟩
    · intro call' rest' h f hm
      obtain ⟨rfl, rfl⟩ := Await.writing.inj (Progress.suspended.inj h)
      exact hframed f (by simp [hm])
    · intro await call' h hc
      obtain rfl := Progress.suspended.inj h
      obtain rfl := Option.some.inj hc
      exact ⟨hf.issued, hf.commandId⟩

/-- The packets of a command that `begin` lets through. -/
theorem framed_of_frame {ref : Nat} {frames : List Bytes}
    (hguard : ¬ (w.session.stream.cipher.isNone = true ∧ command.commandId ≠ .exchangeKeyPubM))
    (hid : (w'.calls call).commandId = command.commandId) (href : (w'.calls call).commandRef = ref)
    (hstream : w'.session.stream = w.session.stream)
    (hframes : ((command.withRef ref).toBytes >>= w.session.stream.frame) = .ok frames) :
    ∀ f ∈ frames, Framed w' call f := by
  intro f hm hne
  rw [hid] at hne
  obtain ⟨raw, hraw, hframe⟩ := bind_eq_ok.mp hframes
  have hsome : w.session.stream.cipher.isNone = false := by
    by_contra hnone
    exact hguard ⟨by simpa using hnone, hne⟩
  obtain ⟨cipher, hcipher⟩ := Option.isSome_iff_exists.mp (by simpa using hsome)
  rw [PacketStream.frame_eq, hcipher] at hframe
  refine ⟨cipher, command.data, raw, frames, ?_, ?_, ?_, hm⟩
  · rw [hstream, hcipher]
  · rw [hid, href]
    exact hraw
  · rw [hstream]
    exact hframe

theorem begin_stretch : Stretch w command (w.begin config command) := by
  unfold World.begin
  split_ifs with hguard
  · exact leave_stretch _
  · split
    · exact leave_stretch _
    · rename_i refs hrefs
      simp only
      split
      · have hgrows := (Grows.issue w command.commandId refs).trans
          (.finish _ w.issued .raised w.now)
        exact .after hgrows rfl rfl rfl rfl rfl rfl rfl (leave_stretch _)
      · rename_i frames hframes
        let begun := (w.issue command.commandId refs).setPending
          ⟨command.commandId, refs.next.1, refs.isStatic, w.issued⟩
        have hgrows : Grows w begun := (Grows.issue w command.commandId refs).trans (.of_calls rfl rfl rfl rfl)
        have hcall : begun.calls w.issued = .issued command.commandId refs.next.1 refs.isStatic w.now := by
          simp [begun, World.setPending, World.issue]
        have hflies : Flies begun command w.issued frames := by
          refine ⟨Nat.lt_succ_self _, by rw [hcall]; rfl, ?_⟩
          exact framed_of_frame hguard (by rw [hcall]; rfl) (by rw [hcall]; rfl) rfl hframes
        exact .after hgrows rfl rfl rfl rfl rfl rfl rfl (writeNext_stretch hflies)

theorem afterPause_stretch : Stretch w command (w.afterPause config command) := by
  unfold World.afterPause
  split_ifs
  · exact leave_stretch _
  · exact begin_stretch

theorem afterAcquire_stretch : Stretch w command (w.afterAcquire config command) := by
  unfold World.afterAcquire
  split_ifs
  · exact leave_stretch _
  · exact leave_stretch _
  · exact suspended_stretch (by simp [Await.call?]) (by simp)
  · exact begin_stretch

theorem withLock_stretch {lock : FifoLock TaskId} {out : World × Progress}
    (h : Stretch (w.withLock lock) command out) : Stretch w command out := by
  have hgrows : Grows w (w.withLock lock) := .of_calls rfl rfl rfl rfl
  exact .after hgrows rfl rfl rfl rfl rfl rfl rfl h

theorem exchange_stretch (t : TaskId) : Stretch w command (w.exchange config t command) := by
  unfold World.exchange
  split
  · exact withLock_stretch afterAcquire_stretch
  · exact withLock_stretch (suspended_stretch (by simp [Await.call?]) (by simp))

/-- What an exchange that waits at this point relies on. -/
def AwaitsFramed (w : World) (command : CommandPayload) : Await → Prop
  | .acquiring | .pausing _ => True
  | .writing call rest => Flies w command call rest
  | .answering call => Flies w command call []

theorem Grows.awaitsFramed {await : Await} (h : Grows w w') (ha : AwaitsFramed w command await) :
    AwaitsFramed w' command await := by
  cases await with
  | acquiring => exact trivial
  | pausing wake => exact trivial
  | writing call rest => exact h.flies ha
  | answering call => exact h.flies ha

theorem Stretch.awaitsFramed {out : World × Progress} {await : Await} (h : Stretch w command out)
    (hout : out.2 = .suspended await) : AwaitsFramed out.1 command await := by
  cases await with
  | acquiring => exact trivial
  | pausing wake => exact trivial
  | writing call rest =>
    obtain ⟨hissued, hid⟩ := h.flying _ call hout rfl
    exact ⟨hissued, hid, h.rest call rest hout⟩
  | answering call =>
    obtain ⟨hissued, hid⟩ := h.flying _ call hout rfl
    exact ⟨hissued, hid, by simp⟩

theorem interruptExchange_stretch (t : TaskId) (interrupt : Interrupt) (await : Await) :
    Stretch w command (w.interruptExchange config t command interrupt await) := by
  cases await with
  | acquiring =>
    refine ⟨rfl, rfl, rfl, rfl, rfl, rfl, .of_calls rfl rfl rfl rfl, fun _ h => .inl h, ?_, ?_⟩
    · exact fun call rest h => by simp [World.interruptExchange] at h
    · exact fun await call h => by simp [World.interruptExchange] at h
  | pausing wake => exact leave_stretch _
  | writing call rest => cases interrupt <;> exact endCall_leave_stretch _ _ _
  | answering call => cases interrupt <;> exact endCall_leave_stretch _ _ _

theorem resumeExchange_stretch {t : TaskId} {reply : Reply} {await : Await} {out : World × Progress}
    (ha : AwaitsFramed w command await)
    (hout : w.resumeExchange config t command reply await = some out) : Stretch w command out := by
  cases await with
  | acquiring =>
    simp only [World.resumeExchange, Option.map_eq_some_iff] at hout
    obtain ⟨lock, -, rfl⟩ := hout
    exact withLock_stretch afterAcquire_stretch
  | pausing wake =>
    simp only [World.resumeExchange] at hout
    split_ifs at hout
    obtain rfl := Option.some.inj hout
    exact afterPause_stretch
  | writing call rest =>
    cases reply with
    | returned raw =>
      obtain rfl := Option.some.inj hout
      exact writeNext_stretch ha
    | raised e =>
      obtain rfl := Option.some.inj hout
      exact endCall_leave_stretch _ _ _
  | answering call =>
    simp only [World.resumeExchange] at hout
    split_ifs at hout
    obtain rfl := Option.some.inj hout
    exact awaitAnswer_stretch ha

end

end OnestiLock
