import OnestiLock.SessionStretch

/-! How far each coroutine has come in `connect`, and the link keys it leaves. A
session connects once, so the cipher is set once. -/

namespace OnestiLock

inductive Stage
  | apart | keying | asking | sending
  deriving DecidableEq

/-- Inside `connect`, before or after the link keys exist. -/
def Stage.connects : Stage → Bool
  | keying | asking => true
  | apart | sending => false

def Coroutine.stage : Coroutine → Stage
  | readingRevision | subscribing _ => .keying
  | exchanging (.connectKey _) _ _ => .keying
  | exchanging .connectModel _ _ => .asking
  | exchanging .send _ _ => .sending
  | failingConnect _ | closing | finished _ => .apart

def World.stage (w : World) (t : TaskId) : Stage := ((w.tasks t).map Coroutine.stage).getD .apart

theorem World.stage_setTask (w : World) (t : TaskId) (task : Coroutine) :
    (w.setTask t task).stage = Function.update w.stage t task.stage := by
  funext u
  by_cases hu : u = t
  · subst hu
    simp [stage, setTask]
  · simp [stage, setTask, hu]

theorem World.stage_congr {w w' : World} (h : w'.tasks = w.tasks) : w'.stage = w.stage := by
  funext u
  rw [stage, stage, h]

theorem World.stage_of_tasks {w : World} {t : TaskId} {task : Coroutine} (h : w.tasks t = some task) :
    w.stage t = task.stage := by
  simp [stage, h]

/-- The link keys come from the lock's answer to this session's own key exchange. -/
def OwnKeys (config : SessionConfig) (prim : Primitives) (w : World) (keys : LinkKeys) : Prop :=
  ∃ call r answer, call < w.issued ∧ (w.calls call).commandId = .exchangeKeyPubM ∧
    (w.calls call).future = .answered r ∧ checkAnswer .exchangeKeyPubM r = .ok answer ∧
    linkKeysOf config prim answer = .ok keys

theorem Grows.ownKeys {config : SessionConfig} {prim : Primitives} {w w' : World} {keys : LinkKeys}
    (h : Grows w w') (ho : OwnKeys config prim w keys) : OwnKeys config prim w' keys := by
  obtain ⟨call, r, answer, hcall, hid, hr, hcheck, hkeys⟩ := ho
  exact ⟨call, r, answer, Nat.lt_of_lt_of_le hcall h.issued, (h.commands call hcall).1.trans hid,
    h.answered call hcall r hr, hcheck, hkeys⟩

/-- The cipher stays as it is, and the state stays or is closed. -/
structure Steady (w w' : World) : Prop where
  grows : Grows w w'
  linkKeys : w'.session.linkKeys = w.session.linkKeys
  cipher : w'.session.stream.cipher = w.session.stream.cipher
  state : w'.session.state = w.session.state ∨ w'.session.state = .closed

theorem Stretch.steady {w : World} {command : CommandPayload} {out : World × Progress}
    (h : Stretch w command out) : Steady w out.1 :=
  ⟨h.grows, h.linkKeys, by rw [h.stream], .inl h.state⟩

/-- What a turn does to the stages of `connect`. -/
inductive Shift (config : SessionConfig) (prim : Primitives) :
    World × (TaskId → Stage) → World × (TaskId → Stage) → Prop
  | steady {w w' : World} {s : TaskId → Stage} (h : Steady w w') : Shift config prim (w, s) (w', s)
  | stop {w : World} {s : TaskId → Stage} (t : TaskId) :
      Shift config prim (w, s) (w, Function.update s t .apart)
  | start {w : World} {s : TaskId → Stage} {t : TaskId} (hs : w.session.state = .new) :
      Shift config prim (w, s)
        ({ w with session := { w.session with state := .connecting } }, Function.update s t .keying)
  | send {w : World} {s : TaskId → Stage} {t : TaskId} (hs : w.session.state = .connected) :
      Shift config prim (w, s) (w, Function.update s t .sending)
  | key {w : World} {s : TaskId → Stage} {t : TaskId} {keys : LinkKeys} (ht : s t = .keying)
      (hown : OwnKeys config prim w keys) :
      Shift config prim (w, s) (w.setLinkKeys prim keys, Function.update s t .asking)
  | connect {w : World} {s : TaskId → Stage} {t : TaskId} (ht : s t = .asking) :
      Shift config prim (w, s)
        ({ w with session := { w.session with state := .connected } }, Function.update s t .apart)

abbrev Shifts (config : SessionConfig) (prim : Primitives) := Relation.ReflTransGen (Shift config prim)

structure StageLinked (config : SessionConfig) (prim : Primitives) (w : World) (s : TaskId → Stage) : Prop where
  mtu : w.session.stream.mtu = config.mtu
  cipher : w.session.stream.cipher = w.session.linkKeys.map fun keys => keys.cipher.payloadCipher prim
  own : ∀ keys, w.session.linkKeys = some keys → OwnKeys config prim w keys
  new : w.session.state = .new → w.session.linkKeys = none ∧ ∀ t, s t = .apart
  unique : ∀ t t', (s t).connects = true → (s t').connects = true → t = t'
  keying : ∀ t, s t = .keying → w.session.linkKeys = none
  unfinished : ∀ t, (s t).connects = true → w.session.state ≠ .connected ∧ ∀ t', s t' ≠ .sending

namespace StageLinked

variable {config : SessionConfig} {prim : Primitives} {w w' : World} {s s' : TaskId → Stage} {t : TaskId}

theorem init : StageLinked config prim (.new config) (World.new config).stage where
  mtu := rfl
  cipher := rfl
  own keys h := by simp [World.new, Session.new] at h
  new _ := ⟨rfl, fun _ => rfl⟩
  unique t t' ht := by simp [World.stage, World.new, Stage.connects] at ht
  keying t ht := by simp [World.stage, World.new] at ht
  unfinished t ht := by simp [World.stage, World.new, Stage.connects] at ht

theorem steady (hi : StageLinked config prim w s) (h : Steady w w') : StageLinked config prim w' s where
  mtu := h.grows.mtu.trans hi.mtu
  cipher := by rw [h.cipher, h.linkKeys, hi.cipher]
  own keys hkeys := h.grows.ownKeys (hi.own keys (h.linkKeys ▸ hkeys))
  new hs := by
    rw [h.linkKeys]
    rcases h.state with hsame | hclosed
    · exact hi.new (hsame.symm.trans hs)
    · rw [hclosed] at hs
      exact absurd hs (by decide)
  unique := hi.unique
  keying t ht := h.linkKeys.trans (hi.keying t ht)
  unfinished t ht := by
    refine ⟨?_, (hi.unfinished t ht).2⟩
    rcases h.state with hsame | hclosed
    · rw [hsame]
      exact (hi.unfinished t ht).1
    · rw [hclosed]
      decide

theorem update_apart {u : TaskId} (h : Function.update s t .apart u ≠ .apart) :
    u ≠ t ∧ Function.update s t .apart u = s u := by
  have hu : u ≠ t := by
    rintro rfl
    exact h (Function.update_self ..)
  exact ⟨hu, Function.update_of_ne hu ..⟩

theorem connects_update_apart {u : TaskId} (h : (Function.update s t .apart u).connects = true) :
    u ≠ t ∧ (s u).connects = true := by
  have hne : Function.update s t .apart u ≠ .apart := by
    intro he
    rw [he] at h
    exact absurd h (by decide)
  obtain ⟨hu, heq⟩ := update_apart hne
  rw [heq] at h
  exact ⟨hu, h⟩

theorem stop (hi : StageLinked config prim w s) : StageLinked config prim w (Function.update s t .apart) where
  mtu := hi.mtu
  cipher := hi.cipher
  own := hi.own
  new hs := by
    obtain ⟨hkeys, hall⟩ := hi.new hs
    refine ⟨hkeys, fun u => ?_⟩
    by_cases hu : u = t
    · rw [hu, Function.update_self]
    · rw [Function.update_of_ne hu, hall u]
  unique u v hu hv := hi.unique u v (connects_update_apart hu).2 (connects_update_apart hv).2
  keying u hu := by
    have hne : Function.update s t .apart u ≠ .apart := by simp [hu]
    exact hi.keying u ((update_apart hne).2 ▸ hu)
  unfinished u hu := by
    obtain ⟨hconnected, hsending⟩ := hi.unfinished u (connects_update_apart hu).2
    refine ⟨hconnected, fun v hv => ?_⟩
    have hne : Function.update s t .apart v ≠ .apart := by simp [hv]
    exact hsending v ((update_apart hne).2 ▸ hv)

theorem start (hi : StageLinked config prim w s) (hs : w.session.state = .new) :
    StageLinked config prim { w with session := { w.session with state := .connecting } }
      (Function.update s t .keying) := by
  obtain ⟨hkeys, hall⟩ := hi.new hs
  have honly : ∀ u, (Function.update s t .keying u).connects = true → u = t := by
    intro u hu
    by_contra hne
    rw [Function.update_of_ne hne, hall u] at hu
    exact absurd hu (by decide)
  refine ⟨hi.mtu, hi.cipher, hi.own, by simp, ?_, fun _ _ => hkeys, ?_⟩
  · intro u v hu hv
    rw [honly u hu, honly v hv]
  · intro u hu
    refine ⟨by simp, fun v hv => ?_⟩
    by_cases hne : v = t
    · rw [hne, Function.update_self] at hv
      exact absurd hv (by decide)
    · rw [Function.update_of_ne hne, hall v] at hv
      exact absurd hv (by decide)

theorem none_connects (hi : StageLinked config prim w s) (hs : w.session.state = .connected) (u : TaskId) :
    (s u).connects = false := by
  by_contra hu
  exact (hi.unfinished u (by simpa using hu)).1 hs

theorem send (hi : StageLinked config prim w s) (hs : w.session.state = .connected) :
    StageLinked config prim w (Function.update s t .sending) := by
  have hnone : ∀ u, (Function.update s t .sending u).connects = false := by
    intro u
    by_cases hu : u = t
    · rw [hu, Function.update_self]
      rfl
    · rw [Function.update_of_ne hu]
      exact hi.none_connects hs u
  refine ⟨hi.mtu, hi.cipher, hi.own, ?_, ?_, ?_, ?_⟩
  · intro hnew
    rw [hs] at hnew
    exact absurd hnew (by decide)
  · intro u v hu
    rw [hnone u] at hu
    exact absurd hu (by decide)
  · intro u hu
    have hfalse := hnone u
    rw [hu] at hfalse
    exact absurd hfalse (by decide)
  · intro u hu
    rw [hnone u] at hu
    exact absurd hu (by decide)

theorem cipher_none (hi : StageLinked config prim w s) (ht : s t = .keying) :
    w.session.stream.cipher = none := by
  rw [hi.cipher, hi.keying t ht]
  rfl

theorem setLinkKeys_grows (hi : StageLinked config prim w s) (ht : s t = .keying) (keys : LinkKeys) :
    Grows w (w.setLinkKeys prim keys) := by
  refine ⟨Nat.le_refl _, fun _ _ => ⟨rfl, rfl⟩, fun _ _ _ h => h, fun _ _ h => h, ?_, rfl⟩
  intro cipher hcipher
  rw [hi.cipher_none ht] at hcipher
  exact absurd hcipher (by simp)

theorem connects_update {x : Stage} {u : TaskId} (ht : (s t).connects = true)
    (h : (Function.update s t x u).connects = true) : (s u).connects = true := by
  by_cases hu : u = t
  · rw [hu]
    exact ht
  · rwa [Function.update_of_ne hu] at h

theorem key {keys : LinkKeys} (hi : StageLinked config prim w s) (ht : s t = .keying)
    (hown : OwnKeys config prim w keys) :
    StageLinked config prim (w.setLinkKeys prim keys) (Function.update s t .asking) := by
  have hconnects : (s t).connects = true := by
    rw [ht]
    rfl
  have hgrows := hi.setLinkKeys_grows ht keys
  refine ⟨hi.mtu, rfl, ?_, ?_, ?_, ?_, ?_⟩
  · intro keys' hkeys'
    obtain rfl := Option.some.inj hkeys'
    exact hgrows.ownKeys hown
  · intro hnew
    obtain ⟨-, hall⟩ := hi.new hnew
    rw [hall t] at ht
    exact absurd ht (by decide)
  · intro u v hu hv
    exact hi.unique u v (connects_update hconnects hu) (connects_update hconnects hv)
  · intro u hu
    by_cases hne : u = t
    · rw [hne, Function.update_self] at hu
      exact absurd hu (by decide)
    · rw [Function.update_of_ne hne] at hu
      have hsame := hi.unique u t (by rw [hu]; rfl) hconnects
      exact absurd hsame hne
  · intro u hu
    obtain ⟨hconnected, hsending⟩ := hi.unfinished u (connects_update hconnects hu)
    refine ⟨hconnected, fun v hv => ?_⟩
    by_cases hne : v = t
    · rw [hne, Function.update_self] at hv
      exact absurd hv (by decide)
    · rw [Function.update_of_ne hne] at hv
      exact hsending v hv

theorem connect (hi : StageLinked config prim w s) (ht : s t = .asking) :
    StageLinked config prim { w with session := { w.session with state := .connected } }
      (Function.update s t .apart) := by
  have hconnects : (s t).connects = true := by
    rw [ht]
    rfl
  have hnone : ∀ u, (Function.update s t .apart u).connects = false := by
    intro u
    by_contra hu
    obtain ⟨hne, hu'⟩ := connects_update_apart (by simpa using hu)
    exact hne (hi.unique u t hu' hconnects)
  refine ⟨hi.mtu, hi.cipher, hi.own, by simp, ?_, ?_, ?_⟩
  · intro u v hu
    rw [hnone u] at hu
    exact absurd hu (by decide)
  · intro u hu
    have hfalse := hnone u
    rw [hu] at hfalse
    exact absurd hfalse (by decide)
  · intro u hu
    rw [hnone u] at hu
    exact absurd hu (by decide)

theorem shift (hm : Shift config prim (w, s) (w', s')) (hi : StageLinked config prim w s) :
    StageLinked config prim w' s' := by
  cases hm with
  | steady h => exact hi.steady h
  | stop t => exact hi.stop
  | start hs => exact hi.start hs
  | send hs => exact hi.send hs
  | key ht hown => exact hi.key ht hown
  | connect ht => exact hi.connect ht

theorem shifts {b : World × (TaskId → Stage)} (hm : Shifts config prim (w, s) b)
    (hi : StageLinked config prim w s) : StageLinked config prim b.1 b.2 ∧ Grows w b.1 := by
  induction hm with
  | refl => exact ⟨hi, .refl w⟩
  | tail _ hstep ih =>
    obtain ⟨hlinked, hgrows⟩ := ih
    refine ⟨hlinked.shift hstep, hgrows.trans ?_⟩
    cases hstep with
    | steady h => exact h.grows
    | key ht hown => exact hlinked.setLinkKeys_grows ht _
    | stop | start | send | connect => exact .of_calls rfl rfl rfl rfl

end StageLinked

end OnestiLock
