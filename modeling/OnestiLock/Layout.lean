import Mathlib.Data.List.Infix

/-! Readers that take a value off the front of a list of symbols, and the
forms a value is written in. -/

/-- The reader takes exactly the forms of a value, and leaves what follows. -/
def Reads {σ α ε : Type} (read : List σ → Except ε (α × List σ)) (form : α → List σ → Prop) : Prop :=
  ∀ b x rest, read b = .ok (x, rest) ↔ ∃ w, form x w ∧ b = w ++ rest

namespace Reads

variable {σ α β ε : Type} {read : List σ → Except ε (α × List σ)} {form : α → List σ → Prop}

/-! How readers compose. -/

theorem pure (x : α) : Reads (fun b : List σ => (.ok (x, b) : Except ε (α × List σ))) (fun y w => y = x ∧ w = []) := by
  intro b y rest
  constructor
  · rintro ⟨⟩
    exact ⟨[], ⟨rfl, rfl⟩, rfl⟩
  · rintro ⟨w, ⟨rfl, rfl⟩, rfl⟩
    rfl

/-- One field after another, which may depend on the first. -/
theorem seq {next : α → List σ → Except ε (β × List σ)} {nextForm : α → β → List σ → Prop}
    (h : Reads read form) (hnext : ∀ a, Reads (next a) (nextForm a)) :
    Reads (fun b => read b >>= fun p => next p.1 p.2)
      (fun y w => ∃ a u v, form a u ∧ nextForm a y v ∧ w = u ++ v) := by
  intro b y rest
  constructor
  · intro hb
    cases hread : read b with
    | error e =>
      simp only [hread] at hb
      cases hb
    | ok p =>
      obtain ⟨a, middle⟩ := p
      simp only [hread] at hb
      obtain ⟨u, hu, rfl⟩ := (h b a middle).mp hread
      obtain ⟨v, hv, rfl⟩ := (hnext a middle y rest).mp hb
      exact ⟨u ++ v, ⟨a, u, v, hu, hv, rfl⟩, by rw [List.append_assoc]⟩
  · rintro ⟨_, ⟨a, u, v, hu, hv, rfl⟩, rfl⟩
    have hread : read (u ++ v ++ rest) = .ok (a, v ++ rest) :=
      (h _ a (v ++ rest)).mpr ⟨u, hu, by rw [List.append_assoc]⟩
    have hrest : next a (v ++ rest) = .ok (y, rest) := (hnext a _ y rest).mpr ⟨v, hv, rfl⟩
    simp only [hread]
    exact hrest

/-- A field that is refused unless it passes a check, and the fields after it. -/
theorem checkSeq {γ : Type} {f : α → Except ε β} {next : β → List σ → Except ε (γ × List σ)}
    {nextForm : β → γ → List σ → Prop} (h : Reads read form) (hnext : ∀ y, Reads (next y) (nextForm y)) :
    Reads (fun b => read b >>= fun p => f p.1 >>= fun y => next y p.2)
      (fun z w => ∃ y u v, (∃ a, form a u ∧ f a = .ok y) ∧ nextForm y z v ∧ w = u ++ v) := by
  intro b z rest
  constructor
  · intro hb
    cases hread : read b with
    | error e =>
      simp only [hread] at hb
      cases hb
    | ok p =>
      obtain ⟨a, middle⟩ := p
      simp only [hread, Bind.bind, Except.bind] at hb
      obtain ⟨u, hu, rfl⟩ := (h b a middle).mp hread
      cases hf : f a with
      | error e =>
        simp only [hf] at hb
        cases hb
      | ok y =>
        simp only [hf] at hb
        obtain ⟨v, hv, rfl⟩ := (hnext y middle z rest).mp hb
        exact ⟨u ++ v, ⟨y, u, v, ⟨a, hu, hf⟩, hv, rfl⟩, by rw [List.append_assoc]⟩
  · rintro ⟨_, ⟨y, u, v, ⟨a, hu, hf⟩, hv, rfl⟩, rfl⟩
    have hread : read (u ++ v ++ rest) = .ok (a, v ++ rest) :=
      (h _ a (v ++ rest)).mpr ⟨u, hu, by rw [List.append_assoc]⟩
    have hrest : next y (v ++ rest) = .ok (z, rest) := (hnext y _ z rest).mpr ⟨v, hv, rfl⟩
    simp only [hread, Bind.bind, Except.bind, hf]
    exact hrest

/-- Only what the reader takes counts. -/
theorem congr {form' : α → List σ → Prop} (h : Reads read form) (heq : ∀ x w, form x w ↔ form' x w) :
    Reads read form' := by
  intro b x rest
  rw [h b x rest]
  simp only [heq]

/-- A field that is checked, and given another shape. -/
theorem check {f : α → Except ε β} (h : Reads read form) :
    Reads (fun b => read b >>= fun p => f p.1 >>= fun y => (.ok (y, p.2) : Except ε (β × List σ)))
      (fun y w => ∃ a, form a w ∧ f a = .ok y) := by
  refine (h.checkSeq (f := f) pure).congr fun y w => ?_
  constructor
  · rintro ⟨_, u, _, ha, ⟨rfl, rfl⟩, rfl⟩
    rwa [List.append_nil]
  · intro ha
    exact ⟨y, w, [], ha, ⟨rfl, rfl⟩, (List.append_nil w).symm⟩

/-! What a reader with forms cannot do. -/

theorem takes (h : Reads read form) {x : α} {w : List σ} (hw : form x w) (rest : List σ) :
    read (w ++ rest) = .ok (x, rest) :=
  (h _ x rest).mpr ⟨w, hw, rfl⟩

/-- The front of the list is all that is looked at. -/
theorem front (h : Reads read form) {b : List σ} {x : α} :
    (∃ rest, read b = .ok (x, rest)) ↔ ∃ w, form x w ∧ w <+: b := by
  constructor
  · rintro ⟨rest, hread⟩
    obtain ⟨w, hw, rfl⟩ := (h b x rest).mp hread
    exact ⟨w, hw, List.prefix_append w rest⟩
  · rintro ⟨w, hw, rest, rfl⟩
    exact ⟨rest, h.takes hw rest⟩

end Reads
