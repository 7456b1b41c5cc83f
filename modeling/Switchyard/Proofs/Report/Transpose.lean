import Switchyard.Proofs.Graph.Accounting
import Switchyard.Report.Basic

namespace Switchyard

namespace Graph

variable {g : Graph} {b p t : Label} {targets : List Label} {n : Nat}

/-- The first table lists the blocks with a jump table, each with its targets. -/
theorem Sound.mem_switches (sound : g.Sound) :
    (b, targets) ∈ g.switches ↔ ∃ table, g.table b = .ok table ∧ table.targets = targets := by
  simp only [switches, List.mem_filterMap, Option.map_eq_some_iff, Array.mem_toList_iff,
    Prod.mk.injEq]
  constructor
  · rintro ⟨block, present, table, switch, rfl, same⟩
    obtain ⟨place, here⟩ := Array.getElem?_of_mem present
    rw [sound.labelled place block here]
    exact ⟨table, table_eq_ok.mpr ⟨block, here, switch⟩, same⟩
  · rintro ⟨table, found, same⟩
    obtain ⟨block, here, switch⟩ := table_eq_ok.mp found
    exact ⟨block, Array.mem_of_getElem? here, table, switch, sound.labelled b block here, same⟩

theorem Sound.ordered_switches (sound : g.Sound) : g.switches.Pairwise fun a b => a.1 < b.1 := by
  have ordered : g.blocks.toList.Pairwise fun a b => a.label < b.label := by
    rw [← List.pairwise_map, ← labels, sound.labels_eq]
    exact List.pairwise_lt_range
  rw [switches, List.pairwise_filterMap]
  refine ordered.imp fun {a b} before entry first other second => ?_
  obtain ⟨_, _, rfl⟩ := Option.map_eq_some_iff.mp first
  obtain ⟨_, _, rfl⟩ := Option.map_eq_some_iff.mp second
  exact before

/-- The count of an edge is positive only if a switch lists it. -/
theorem Reachable.mem_into (reached : g.Reachable) :
    (p, n) ∈ g.predecessors.into t ↔
      ∃ targets, (p, targets) ∈ g.switches ∧ t ∈ targets ∧ targets.count t = n := by
  have accounted := reached.accounted
  simp only [Predecessors.mem_into, accounted.counted, reached.keeps.sound.mem_switches]
  constructor
  · rintro ⟨rfl, positive⟩
    cases found : g.table p with
    | error fault => simp [targets_of_error found] at positive
    | ok table =>
        rw [targets_of_table found] at positive ⊢
        exact ⟨table.targets, ⟨table, rfl, rfl⟩, List.count_pos_iff.mp positive, rfl⟩
  · rintro ⟨targets, ⟨table, found, rfl⟩, member, rfl⟩
    rw [targets_of_table found]
    exact ⟨rfl, List.count_pos_iff.mpr member⟩

end Graph

namespace Report

/-- The blocks that occur in some list, each with the switches that list it and how often. -/
structure Transposes (switches : List (Label × List Label))
    (predecessors : List (Label × List (Label × Nat))) : Prop where
  ordered : predecessors.Pairwise fun a b => a.1 < b.1
  listed : ∀ t, (∃ sources, (t, sources) ∈ predecessors) ↔
    ∃ p targets, (p, targets) ∈ switches ∧ t ∈ targets
  inhabited : ∀ t sources, (t, sources) ∈ predecessors → sources ≠ []
  sorted : ∀ t sources, (t, sources) ∈ predecessors → sources.Pairwise fun a b => a.1 < b.1
  counted : ∀ t sources, (t, sources) ∈ predecessors → ∀ p n, (p, n) ∈ sources ↔
    ∃ targets, (p, targets) ∈ switches ∧ t ∈ targets ∧ targets.count t = n

/-- The report has all switches of the graph, also the empty ones, and it has no others. -/
structure Tabulates (report : Report) (g : Graph) : Prop where
  ordered : report.switches.Pairwise fun a b => a.1 < b.1
  switched : ∀ b targets, (b, targets) ∈ report.switches ↔
    ∃ table, g.table b = .ok table ∧ table.targets = targets
  transposed : Transposes report.switches report.predecessors

variable {g : Graph} {edits : List Applied} {t : Label} {sources : List (Label × Nat)}

/-- A block outside the graph would have no predecessors. -/
theorem mem_predecessors (sound : g.Sound) :
    (t, sources) ∈ (ofGraph g edits).predecessors ↔
      g.predecessors.into t = sources ∧ sources ≠ [] := by
  simp only [ofGraph, sound.labels_eq, List.mem_filter, List.mem_map, List.mem_range,
    Prod.mk.injEq, Bool.not_eq_true', List.isEmpty_eq_false_iff]
  constructor
  · rintro ⟨⟨_, _, rfl, same⟩, some⟩
    exact ⟨same, some⟩
  · rintro ⟨rfl, some⟩
    have inside : t < g.size := by
      by_contra outside
      exact some (sound.into_of_le (Nat.le_of_not_lt outside))
    exact ⟨⟨t, inside, rfl, rfl⟩, some⟩

/-- The rows of predecessors are in block order. -/
theorem ordered_predecessors (sound : g.Sound) :
    (ofGraph g edits).predecessors.Pairwise fun a b => a.1 < b.1 := by
  rw [ofGraph, sound.labels_eq]
  apply List.Pairwise.filter
  rw [List.pairwise_map]
  exact List.pairwise_lt_range

/-- Whatever was done to the graph, its report has each edge in both tables. -/
theorem tabulates_of_reachable (reached : g.Reachable) (edits : List Applied) :
    (ofGraph g edits).Tabulates g := by
  have sound := reached.keeps.sound
  refine ⟨sound.ordered_switches, fun b targets => sound.mem_switches, ?_⟩
  constructor
  case ordered => exact ordered_predecessors sound
  case listed =>
    intro t
    simp only [mem_predecessors sound]
    constructor
    · rintro ⟨sources, same, some⟩
      obtain ⟨⟨p, n⟩, member⟩ := List.exists_mem_of_ne_nil sources some
      obtain ⟨targets, switch, listed, _⟩ := reached.mem_into.mp (same ▸ member)
      exact ⟨p, targets, switch, listed⟩
    · rintro ⟨p, targets, switch, listed⟩
      have member := reached.mem_into.mpr ⟨targets, switch, listed, rfl⟩
      exact ⟨g.predecessors.into t, rfl, List.ne_nil_of_mem member⟩
  case inhabited =>
    intro t sources entry
    exact ((mem_predecessors sound).mp entry).2
  case sorted =>
    intro t sources entry
    obtain ⟨rfl, _⟩ := (mem_predecessors sound).mp entry
    exact g.predecessors.ordered_into t
  case counted =>
    intro t sources entry p n
    obtain ⟨rfl, _⟩ := (mem_predecessors sound).mp entry
    exact reached.mem_into

/-- The second edit is refused. Block `1` is a switch without targets, and nothing leads to it. -/
theorem tabulates_after_refusal :
    let start := Graph.Request.after (.attachSwitch 1 (.ofList []))
      (Graph.Request.after (.attachSwitch 0 (.ofList [2, 0])) (Graph.ofSize 3))
    let g := Graph.Request.after (.script [⟨0, .push 2⟩, ⟨2, .clear⟩]) start
    let report := ofGraph g [⟨⟨0, .push 2⟩, [⟨0, none, some 2⟩]⟩]
    report.switches = [(0, [2, 0, 2]), (1, [])] ∧
      report.predecessors = [(0, [(0, 1)]), (2, [(0, 2)])] ∧ report.Tabulates g := by
  refine ⟨by decide, by decide, ?_⟩
  apply tabulates_of_reachable
  exact .request _ (.request _ (.request _ (.initial (.ofSize 3))))

end Report

end Switchyard
