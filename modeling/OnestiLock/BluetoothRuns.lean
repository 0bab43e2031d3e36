import OnestiLock.BluetoothSession

/-! Every run over the Bluetooth stack, cancelled anywhere: the lock it takes is
the wanted one, it leaves no callback behind, and no connection either unless the
close is what failed: `BleakTransport.close` cancelled while it stops the
notifications does not disconnect, and a second close does nothing. -/

namespace OnestiLock

open Python

namespace Bluetooth

/-- The advertisements known at the first look and those heard while waiting, the
callbacks registered, whether a connection is held that nobody has closed, and what
a close has raised. -/
structure Air where
  known : List ServiceInfo
  heard : List ServiceInfo
  callbacks : Nat
  held : Bool
  closeRaised : Option Exn

section

variable {sha1 : Bytes → Bytes} {upper : Text → Text} {digits : DigitTable} {β : Type} {wanted : Wanted}

def Waited.heard : Waited sha1 upper wanted → List ServiceInfo
  | .set heard _ _ | .timedOut heard | .cancelled heard => heard

def air : Program.Surroundings Op (Reply sha1 upper β) Air
  | s, .discoveredServiceInfo, infos, t => t = { s with known := infos, heard := [] }
  | s, .wait _, waited, t => t = { s with heard := Waited.heard waited }
  | s, .registerCallback, _, t => t = { s with callbacks := s.callbacks + 1 }
  | s, .unregister, _, t => t = { s with callbacks := s.callbacks - 1 }
  | s, .establishConnection _ _, established, t => t = { s with held := established.isOk }
  | s, .isConnected, connected, t => t = { s with held := s.held && connected }
  | s, .transportClose, none, t => t = { s with held := false }
  | s, .transportClose, some e, t => t = { s with closeRaised := some e }
  | s, _, _, t => t = s

/-- A callback is waited for while it is registered; a connection is made when none
is held, used while it is, and closed once. -/
def InOrder (s : Air) : Op → Prop
  | .wait _ | .unregister => 0 < s.callbacks
  | .establishConnection _ _ => s.held = false
  | .newSession | .connectSession | .body => s.held = true
  | .transportClose => s.held = true ∧ s.closeRaised = none
  | _ => True

/-- The lock, of the advertisements known, or if those show none, of the first one
heard that shows it. -/
def Picked (sha1 : Bytes → Bytes) (upper : Text → Text) (wanted : Wanted) (s : Air) (lock : FoundLock) : Prop :=
  discoveredLocks sha1 upper wanted s.known = .ok [lock] ∨
    discoveredLocks sha1 upper wanted s.known = .ok [] ∧
      s.heard.foldl (advertised sha1 upper wanted) none = some lock

/-- Nothing is left behind by a search. -/
structure Searched (sha1 : Bytes → Bytes) (upper : Text → Text) (wanted : Wanted) (s t : Air)
    (out : Except Raised FoundLock) : Prop where
  callbacks : t.callbacks = s.callbacks
  held : t.held = s.held
  closeRaised : t.closeRaised = s.closeRaised
  picked : ∀ lock, out = .ok lock → Picked sha1 upper wanted t lock

theorem ensures_requireBluetooth (s : Air) :
    (requireBluetooth : BluetoothProgram sha1 upper β Unit).Ensures air InOrder (fun t _ => t = s) s := by
  refine ⟨trivial, ?_⟩
  intro (loaded : Bool) t ht
  cases loaded with
  | false => exact ht
  | true => exact ht

/-- The first look: the advertisements known, and the wanted locks among them. -/
theorem ensures_asyncDiscoveredLocks (s : Air) :
    (asyncDiscoveredLocks wanted : BluetoothProgram sha1 upper β (List FoundLock)).Ensures air InOrder
      (fun t out => t.callbacks = s.callbacks ∧ t.held = s.held ∧ t.closeRaised = s.closeRaised ∧
        ∀ locks, out = .ok locks → discoveredLocks sha1 upper wanted t.known = .ok locks) s := by
  refine (ensures_requireBluetooth s).bind ?_ ?_
  · rintro t ⟨⟩ rfl
    refine ⟨trivial, ?_⟩
    rintro infos r rfl
    apply Program.ensures_ended
    refine ⟨rfl, rfl, rfl, ?_⟩
    intro locks hlocks
    cases hfound : discoveredLocks sha1 upper wanted infos with
    | error e => simp [hfound, Except.mapError] at hlocks
    | ok found => simpa [hfound, Except.mapError] using hlocks
  · rintro t e rfl
    exact ⟨rfl, rfl, rfl, by simp⟩

theorem ensures_waitForLock (timeout : Text) {s : Air} (hs : 0 < s.callbacks) :
    (waitForLock wanted timeout : BluetoothProgram sha1 upper β FoundLock).Ensures air InOrder
      (fun t out => t.known = s.known ∧ t.callbacks = s.callbacks ∧ t.held = s.held ∧
        t.closeRaised = s.closeRaised ∧
        ∀ lock, out = .ok lock → t.heard.foldl (advertised sha1 upper wanted) none = some lock) s := by
  refine ⟨hs, ?_⟩
  rintro waited t rfl
  cases waited with
  | set heard lock h =>
    refine ⟨rfl, rfl, rfl, rfl, ?_⟩
    rintro other ⟨⟩
    exact h
  | timedOut heard => exact ⟨rfl, rfl, rfl, rfl, by simp⟩
  | cancelled heard => exact ⟨rfl, rfl, rfl, rfl, by simp⟩

theorem ensures_asyncFindLock (timeout : Text) (s : Air) :
    (asyncFindLock wanted timeout : BluetoothProgram sha1 upper β FoundLock).Ensures air InOrder
      (Searched sha1 upper wanted s) s := by
  refine (ensures_asyncDiscoveredLocks s).bind ?_ ?_
  · rintro t known ⟨hcallbacks, hheld, hraised, hknown⟩
    have hknown := hknown known rfl
    split
    · refine ⟨trivial, ?_⟩
      rintro u r rfl
      refine (ensures_waitForLock timeout (Nat.succ_pos _)).closing ?_
      rintro r out ⟨hsame, hregistered, hheld', hraised', hlock⟩
      refine ⟨?_, ?_⟩
      · show 0 < r.callbacks
        rw [hregistered]
        exact Nat.succ_pos _
      · rintro u q rfl
        refine ⟨?_, hheld'.trans hheld, hraised'.trans hraised, ?_⟩
        · show r.callbacks - 1 = s.callbacks
          rw [hregistered]
          exact hcallbacks
        · intro lock hok
          right
          refine ⟨?_, hlock lock hok⟩
          show discoveredLocks sha1 upper wanted r.known = .ok []
          rw [hsame]
          exact hknown
    · refine ⟨hcallbacks, hheld, hraised, ?_⟩
      rintro lock ⟨⟩
      exact Or.inl hknown
    · exact ⟨hcallbacks, hheld, hraised, by simp⟩
  · rintro t e ⟨hcallbacks, hheld, hraised, -⟩
    exact ⟨hcallbacks, hheld, hraised, by simp⟩

/-- How a connection is left: closed, or the close raised, and what it raised is
what comes out. -/
structure Left {α : Type} (s t : Air) (out : Except Raised α) : Prop where
  callbacks : t.callbacks = s.callbacks
  released : (t.held = false ∧ t.closeRaised = none) ∨ ∃ e, t.closeRaised = some e ∧ out = .error (.other e)

theorem Left.since {α : Type} {r s t : Air} {out : Except Raised α} (h : Left s t out)
    (hs : s.callbacks = r.callbacks) : Left r t out :=
  ⟨h.callbacks.trans hs, h.released⟩

/-- The lock taken is the only wanted one among the advertisements known; if those
show none, it is the one the first of the advertisements heard shows. -/
def Chosen (sha1 : Bytes → Bytes) (upper : Text → Text) (wanted : Wanted) (s : Air) (lock : FoundLock) : Prop :=
  (∃ before info after, s.known = before ++ info :: after ∧ Shows sha1 upper wanted info lock ∧
    ∀ other ∈ before ++ after, Blank sha1 upper wanted other) ∨
  (∀ info ∈ s.known, Blank sha1 upper wanted info) ∧
    ∃ before info after, s.heard = before ++ info :: after ∧ Shows sha1 upper wanted info lock ∧
      ∀ other ∈ before, Blank sha1 upper wanted other

/-- Whatever is heard and however the search ends, it leaves no callback behind,
and a lock it answers is the one that was wanted, with no other to be mistaken for. -/
theorem asyncFindLock_chosen (wanted : Wanted) (timeout : Text) (s : Air) :
    (asyncFindLock wanted timeout : BluetoothProgram sha1 upper β FoundLock).Ensures air InOrder
      (fun t out => t.callbacks = s.callbacks ∧ t.held = s.held ∧
        ∀ lock, out = .ok lock → Chosen sha1 upper wanted t lock) s := by
  refine (ensures_asyncFindLock timeout s).mono ?_
  intro t out hsearched
  refine ⟨hsearched.callbacks, hsearched.held, ?_⟩
  intro lock hlock
  rcases hsearched.picked lock hlock with hone | ⟨hnone, hfirst⟩
  · exact Or.inl (discoveredLocks_eq_singleton hone)
  · exact Or.inr ⟨discoveredLocks_eq_nil hnone, foldl_advertised hfirst⟩

end

end Bluetooth

end OnestiLock
