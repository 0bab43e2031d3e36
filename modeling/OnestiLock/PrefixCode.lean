import Mathlib.Data.List.Infix

/-! Codes that are read from the front of a list of symbols and say themselves
where they end. -/

/-- A reader accepts exactly the lists that start with a written valid value. -/
structure PrefixCode (σ α ε : Type) where
  write : α → List σ
  read : List σ → Except ε α
  Valid : α → Prop
  read_eq_ok : ∀ {b : List σ} {x : α}, read b = .ok x ↔ Valid x ∧ write x <+: b

namespace PrefixCode

variable {σ α ε : Type} {b p : List σ} {x y : α}

theorem read_write (c : PrefixCode σ α ε) (hx : c.Valid x) (tail : List σ) :
    c.read (c.write x ++ tail) = .ok x :=
  c.read_eq_ok.mpr ⟨hx, List.prefix_append _ _⟩

/-- No written value starts with another. -/
theorem eq_of_write_prefix (c : PrefixCode σ α ε) (hx : c.Valid x) (hy : c.Valid y)
    (h : c.write x <+: c.write y) : x = y := by
  have hread : c.read (c.write y) = .ok x := c.read_eq_ok.mpr ⟨hx, h⟩
  have hself : c.read (c.write y) = .ok y := c.read_eq_ok.mpr ⟨hy, List.prefix_rfl⟩
  have hxy : (Except.ok x : Except ε α) = .ok y := hread.symm.trans hself
  exact Except.ok.inj hxy

theorem strict_prefix_refused (c : PrefixCode σ α ε) (hy : c.Valid y) (hp : p <+: c.write y)
    (hne : p ≠ c.write y) : ∃ e, c.read p = .error e := by
  cases hread : c.read p with
  | error e => exact ⟨e, rfl⟩
  | ok x =>
    have hx := c.read_eq_ok.mp hread
    have hxy : x = y := c.eq_of_write_prefix hx.1 hy (hx.2.trans hp)
    have hpre : c.write y <+: p := hxy ▸ hx.2
    exact absurd (hp.eq_of_length (Nat.le_antisymm hp.length_le hpre.length_le)) hne

end PrefixCode
