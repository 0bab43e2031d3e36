import OnestiLock.SessionTrace

/-! The frame log is read back line by line, and says what failed first. -/

namespace OnestiLock

namespace Trace

open Python Json

/-! What is in the log after a run. -/

/-- The records whose line the handle took, up to the close. -/
def kept (secrets : Bool) : List (TraceCall × Moment) → List Value
  | [] => []
  | (.close, _) :: _ => []
  | (c, m) :: more =>
    match c.event? secrets with
    | some (event, fields) => (if m.attempt.taken then [m.record event fields] else []) ++ kept secrets more
    | none => kept secrets more

namespace RedactingTracer

variable {reprFloat : Json.Real → Text}

theorem write_closed {tracer : RedactingTracer} (h : tracer.isOpen = false) (m : Moment) (event : String)
    (fields : Fields) : tracer.write reprFloat m event fields = tracer := if_pos h

theorem call_closed {tracer : RedactingTracer} (h : tracer.isOpen = false) (c : TraceCall × Moment) :
    tracer.call reprFloat c = tracer := by
  obtain ⟨c, m⟩ := c
  have hclose : ({ tracer with isOpen := false } : RedactingTracer) = tracer := by rw [← h]
  cases c with
  | close => exact hclose
  | secret event fields => cases hs : tracer.secrets <;> simp [call, TraceCall.event?, hs, write_closed h]
  | _ => simp only [call, TraceCall.event?, write_closed h]

theorem run_closed {tracer : RedactingTracer} (h : tracer.isOpen = false) (calls : List (TraceCall × Moment)) :
    tracer.run reprFloat calls = tracer := by
  induction calls with
  | nil => rfl
  | cons c calls ih =>
    simp only [run, List.foldl_cons] at ih ⊢
    rw [call_closed h, ih]

end RedactingTracer

/-! What can be read back. -/

section

variable {reprFloat : Json.Real → Text} {depth : Nat}

/-- A length or a number that Python writes out. -/
def Countable (n : Nat) : Prop := n < 10 ^ maxStrDigits

def LegibleFields (reprFloat : Json.Real → Text) (depth : Nat) (fields : Fields) : Prop :=
  ∀ f ∈ fields, Unpaired f.1 ∧ Legible reprFloat depth f.2

/-- Lengths and references are countable, and what the tool notes down itself
can be read back. -/
def TraceCall.Legible (reprFloat : Json.Real → Text) (depth : Nat) : TraceCall → Prop
  | packetOut data | packetIn data => Countable data.length
  | command c => Countable c.commandRef ∧ Countable c.payload.length
  | response r => Countable r.commandRef ∧ Countable r.payload.length
  | dropped _ data => Countable data.length
  | note _ fields | secret _ fields => LegibleFields reprFloat depth fields
  | close => True

end

end Trace

end OnestiLock
