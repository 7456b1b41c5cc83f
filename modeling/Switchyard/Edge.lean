import Switchyard.Label

namespace Switchyard

/-- An edge between two blocks. -/
structure Edge where
  source : Label
  target : Label
deriving DecidableEq, Repr

/-- Edges are ordered by source, and those of one source by target. -/
def Edge.le (a b : Edge) : Bool :=
  a.source < b.source || (a.source == b.source && a.target ≤ b.target)

/-- The order as a proposition. -/
theorem Edge.le_iff {a b : Edge} :
    a.le b = true ↔ a.source < b.source ∨ a.source = b.source ∧ a.target ≤ b.target := by
  simp [le]

/-- The same order as a comparison, for maps that are keyed by edges. -/
instance : Ord Edge := ⟨compareLex (compareOn Edge.source) (compareOn Edge.target)⟩

instance : Std.TransOrd Edge :=
  inferInstanceAs (Std.TransCmp (compareLex (compareOn Edge.source) (compareOn Edge.target)))

theorem Edge.compare_eq (a b : Edge) :
    compare a b = (compare a.source b.source).then (compare a.target b.target) := rfl

instance : Std.LawfulEqOrd Edge where
  eq_of_compare {a b} same := by
    rw [Edge.compare_eq, Ordering.then_eq_eq, Nat.compare_eq_eq, Nat.compare_eq_eq] at same
    cases a
    cases b
    cases same.1
    cases same.2
    rfl

/-- What compares as smaller comes first in the order. -/
theorem Edge.le_of_compare {a b : Edge} (before : compare a b = .lt) : a.le b = true := by
  rw [compare_eq, Ordering.then_eq_lt, Nat.compare_eq_lt, Nat.compare_eq_eq, Nat.compare_eq_lt]
    at before
  exact le_iff.mpr (before.imp_right fun ⟨same, smaller⟩ => ⟨same, Nat.le_of_lt smaller⟩)

end Switchyard
