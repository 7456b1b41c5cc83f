import Switchyard.Proofs.Graph.Sound
import Switchyard.Proofs.Predecessors.Locality

namespace Switchyard

/-- A block is its label and its table. -/
theorem Block.eq_of_label_of_table {left right : Block} (labels : left.label = right.label)
    (tables : left.table = right.table) : left = right := by
  cases left
  cases right
  cases labels
  cases tables
  rfl

namespace Graph

/-- The two graphs have the same blocks, and they agree about the share of this block. -/
structure SameShare (b : Label) (g h : Graph) : Prop where
  sizes : g.size = h.size
  tables : g.table b = h.table b
  counts : ∀ target, g.predecessors.multiplicity target b = h.predecessors.multiplicity target b

namespace SameShare

variable {b : Label} {g h k : Graph}

theorem symm (same : SameShare b g h) : SameShare b h g where
  sizes := same.sizes.symm
  tables := same.tables.symm
  counts target := (same.counts target).symm

theorem trans (first : SameShare b g h) (second : SameShare b h k) : SameShare b g k where
  sizes := first.sizes.trans second.sizes
  tables := first.tables.trans second.tables
  counts target := (first.counts target).trans (second.counts target)

end SameShare

variable {α : Type} {plan : Plan α} {b p : Label} {g h : Graph} {table : JumpTable}

/-- Sound graphs of one size have the same wired blocks. -/
theorem Sound.sameWired (left : g.Sound) (right : h.Sound) (sizes : g.size = h.size) (b : Label) :
    g.predecessors.isWired b = h.predecessors.isWired b := by
  rw [Bool.eq_iff_iff, left.wired, right.wired, sizes]

/-- The answer of an update and the share that it leaves depend on its own share. -/
theorem Sound.onTable_local (left : g.Sound) (right : h.Sound) (faithful : plan.Faithful)
    (same : SameShare b g h) :
    Step.outcome (onTable b (plan.carryOut Predecessors.observer)) g =
        Step.outcome (onTable b (plan.carryOut Predecessors.observer)) h ∧
      SameShare b (Step.after (onTable b (plan.carryOut Predecessors.observer)) g)
        (Step.after (onTable b (plan.carryOut Predecessors.observer)) h) := by
  rw [outcome_onTable, outcome_onTable, after_onTable, after_onTable, ← same.tables]
  cases found : g.table b with
  | error fault => exact ⟨rfl, same⟩
  | ok table =>
      have alike : Observed.Alike b ⟨table, g.predecessors⟩ ⟨table, h.predecessors⟩ := {
        tables := rfl
        wired := left.sameWired right same.sizes
        counts := same.counts }
      obtain ⟨sameOutcome, later⟩ :=
        Plan.carryOut_alike faithful (left.owned b table found) alike
      have inside := lt_size_of_table found
      refine ⟨sameOutcome, ?_, ?_, later.counts⟩
      · rw [size_put, size_put, same.sizes]
      · rw [table_put_self inside, table_put_self (same.sizes ▸ inside), later.tables]

/-- The share of another block stays as it is. -/
theorem Sound.onTable_frame (sound : g.Sound) (faithful : plan.Faithful) (other : p ≠ b) :
    SameShare p (Step.after (onTable b (plan.carryOut Predecessors.observer)) g) g := by
  rw [after_onTable]
  cases found : g.table b with
  | error fault => exact ⟨rfl, rfl, fun _ => rfl⟩
  | ok table =>
      have conserved := Plan.carryOut_conserves (s := ⟨table, g.predecessors⟩) faithful
        (sound.owned b table found)
      refine ⟨size_put g b _, table_put_ne g _ other, fun target => ?_⟩
      exact conserved.othersKept target p other

/-- A block is known by its label and its table. -/
theorem Sound.blocks_eq (left : g.Sound) (right : h.Sound) (sizes : g.size = h.size)
    (tables : ∀ b, g.table b = h.table b) : g.blocks = h.blocks := by
  apply Array.ext sizes
  intro b insideLeft insideRight
  have here := Array.getElem?_eq_getElem insideLeft
  have there := Array.getElem?_eq_getElem insideRight
  have labels : g.blocks[b].label = h.blocks[b].label := by
    rw [left.labelled b _ here, right.labelled b _ there]
  have same := tables b
  simp only [Graph.table, Graph.block, here, there] at same
  apply Block.eq_of_label_of_table labels
  -- A missing table is told by the same fault on both sides, which names the label alone.
  cases mine : g.blocks[b].table <;> cases yours : h.blocks[b].table <;>
    simp_all only [reduceCtorEq, Except.ok.injEq]

/-- Nothing in a sound graph is outside the shares of its blocks. -/
theorem Sound.eq_of_sameShare (left : g.Sound) (right : h.Sound)
    (same : ∀ b, SameShare b g h) : g = h := by
  have sizes := (same 0).sizes
  have blocks := left.blocks_eq right sizes fun b => (same b).tables
  have predecessors : g.predecessors = h.predecessors := by
    apply Predecessors.ext_multiplicity (left.sameWired right sizes)
    intro target source
    exact (same source).counts target
  cases g
  cases h
  cases blocks
  cases predecessors
  rfl

/-- An update goes as it would go without an update of another table before it. -/
theorem Sound.outcome_of_other {β : Type} {other : Plan β} (sound : g.Sound)
    (faithful : plan.Faithful) (otherFaithful : other.Faithful) (apart : b ≠ p) :
    Step.outcome (onTable b (plan.carryOut Predecessors.observer))
        (Step.after (onTable p (other.carryOut Predecessors.observer)) g) =
      Step.outcome (onTable b (plan.carryOut Predecessors.observer)) g := by
  have kept := sound.keeps_onTable otherFaithful p
  exact (kept.sound.onTable_local sound faithful (sound.onTable_frame otherFaithful apart)).1

/-- Updates of two tables can trade places. -/
theorem Sound.after_commute {β : Type} {other : Plan β} (sound : g.Sound)
    (faithful : plan.Faithful) (otherFaithful : other.Faithful) (apart : b ≠ p) :
    Step.after (onTable b (plan.carryOut Predecessors.observer))
        (Step.after (onTable p (other.carryOut Predecessors.observer)) g) =
      Step.after (onTable p (other.carryOut Predecessors.observer))
        (Step.after (onTable b (plan.carryOut Predecessors.observer)) g) := by
  have first := (sound.keeps_onTable faithful b).sound
  have second := (sound.keeps_onTable otherFaithful p).sound
  have left := (second.keeps_onTable faithful b).sound
  have right := (first.keeps_onTable otherFaithful p).sound
  apply left.eq_of_sameShare right
  intro q
  -- Each share is written by one of the two updates or by none.
  by_cases atFirst : q = b
  · subst atFirst
    have mine := (second.onTable_local sound faithful (sound.onTable_frame otherFaithful apart)).2
    exact mine.trans (first.onTable_frame otherFaithful apart).symm
  · by_cases atSecond : q = p
    · subst atSecond
      have apart' := Ne.symm apart
      have yours :=
        (first.onTable_local sound otherFaithful (sound.onTable_frame faithful apart')).2
      exact (second.onTable_frame faithful apart').trans yours.symm
    · have along := (second.onTable_frame faithful atFirst).trans
        (sound.onTable_frame otherFaithful atSecond)
      have around := (first.onTable_frame otherFaithful atSecond).trans
        (sound.onTable_frame faithful atFirst)
      exact along.trans around.symm

end Graph

end Switchyard
