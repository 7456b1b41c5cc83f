import Switchyard.Proofs.Predecessors.Record
import Mathlib.Algebra.GroupWithZero.Nat
import Mathlib.Data.List.Nodup

namespace Switchyard.Predecessors

variable {p : Predecessors} {source target : Label} {n : Nat}

/-- The predecessors of a block are the sources that are counted for it. -/
theorem mem_into : (source, n) ∈ p.into target ↔ p.multiplicity target source = n ∧ 0 < n :=
  Tally.mem_toList

/-- Each predecessor is listed once, in increasing order. -/
theorem ordered_into (p : Predecessors) (target : Label) :
    (p.into target).Pairwise fun a b => a.1 < b.1 :=
  (p.row target).ordered_toList

/-- The in-degree is the sum over the predecessors. -/
theorem inDegree_eq_sum (p : Predecessors) (target : Label) :
    p.inDegree target = ((p.into target).map Prod.snd).sum := by
  rw [inDegree, Tally.total, into, List.sum, List.foldr_map]

/-- A block that is not wired has no predecessors. -/
theorem into_of_unwired (unwired : p.isWired target = false) : p.into target = [] := by
  have stranger : target ∉ p.rows := by
    rw [← Std.ExtTreeMap.contains_iff_mem]
    exact Bool.eq_false_iff.mp unwired
  rw [into, row, Std.ExtTreeMap.getD_eq_fallback stranger]
  rfl

/-- A block is in the table with all its predecessors when it has some. -/
theorem mem_table {sources : List (Label × Nat)} :
    (target, sources) ∈ p.table ↔ p.into target = sources ∧ sources ≠ [] := by
  simp only [table, List.mem_filter, List.mem_map, Prod.mk.injEq, Prod.exists,
    Std.ExtTreeMap.mem_toList_iff_getElem?_eq_some, getElem?_rows]
  constructor
  · rintro ⟨⟨block, row, found, rfl, rfl⟩, some⟩
    split at found
    · cases found
      exact ⟨rfl, by simpa using some⟩
    · cases found
  · rintro ⟨rfl, some⟩
    have wired : p.isWired target = true := by
      by_contra unwired
      exact some (into_of_unwired (Bool.eq_false_iff.mpr unwired))
    exact ⟨⟨target, p.row target, by rw [if_pos wired], rfl, rfl⟩, by simpa using some⟩

/-- Each block has one row, in increasing order. -/
theorem ordered_table (p : Predecessors) : p.table.Pairwise fun a b => a.1 < b.1 := by
  rw [table]
  apply List.Pairwise.filter
  rw [List.pairwise_map]
  exact Std.ExtTreeMap.ordered_keys_toList.imp Nat.compare_eq_lt.mp

/-- The edges are the pairs that are counted, each with its multiplicity. -/
theorem mem_edges {e : Edge} :
    (e, n) ∈ p.edges ↔ p.multiplicity e.target e.source = n ∧ 0 < n := by
  rw [edges, List.mem_mergeSort, List.mem_flatMap, ← mem_into]
  constructor
  · rintro ⟨⟨block, sources⟩, listed, member⟩
    obtain ⟨⟨source, count⟩, present, same⟩ := List.mem_map.mp member
    cases same
    rwa [(mem_table.mp listed).1]
  · intro present
    refine ⟨(e.target, p.into e.target), mem_table.mpr ⟨rfl, List.ne_nil_of_mem present⟩, ?_⟩
    exact List.mem_map.mpr ⟨(e.source, n), present, rfl⟩

/-- Two entries of the edges differ in the target, or they differ in the source within one row. -/
theorem nodup_edges (p : Predecessors) : (p.edges.map Prod.fst).Nodup := by
  rw [edges, ((List.mergeSort_perm _ _).map Prod.fst).nodup_iff, List.map_flatMap,
    List.nodup_flatMap]
  constructor
  · rintro ⟨target, sources⟩ listed
    obtain ⟨rfl, _⟩ := mem_table.mp listed
    rw [List.map_map, List.Nodup, List.pairwise_map]
    refine (p.ordered_into target).imp fun {a b} before same => ?_
    cases a
    cases b
    cases same
    exact Nat.lt_irrefl _ before
  · refine p.ordered_table.imp fun {a b} before => ?_
    intro e first second
    simp only [List.map_map, List.mem_map, Function.comp_apply] at first second
    obtain ⟨x, _, rfl⟩ := first
    obtain ⟨y, _, same⟩ := second
    have sameTarget : b.1 = a.1 := congrArg Edge.target same
    exact Nat.ne_of_gt before sameTarget

end Switchyard.Predecessors
