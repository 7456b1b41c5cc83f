import Switchyard.Graph.Audit
import Switchyard.Proofs.Graph.Sound
import Mathlib.Data.List.Count

namespace Switchyard.Graph

variable {g : Graph} {entries : List (Edge × Nat)}

/-- A list of targets names the edges of its own block alone. -/
theorem count_map_edge (b : Label) (targets : List Label) (e : Edge) :
    (targets.map fun target => Edge.mk b target).count e =
      if e.source = b then targets.count e.target else 0 := by
  split
  · next same =>
    obtain ⟨source, target⟩ := e
    cases same
    exact List.count_map_of_injective targets _ (fun _ _ => congrArg Edge.target) target
  · next other =>
    rw [List.count_eq_zero]
    intro listed
    obtain ⟨target, _, rfl⟩ := List.mem_map.mp listed
    exact other rfl

/-- The tables are gone through in the order of their blocks. -/
theorem Sound.listedEdges_eq (sound : g.Sound) :
    g.listedEdges =
      (List.range g.size).flatMap fun b => (g.targets b).map fun target => ⟨b, target⟩ := by
  have perBlock : g.listedEdges = (g.blocks.toList.map fun block =>
      (block.table.elim [] JumpTable.targets).map (Edge.mk block.label)).flatten := by
    rw [listedEdges, switches]
    induction g.blocks.toList with
    | nil => rfl
    | cons block rest ih => cases switch : block.table <;> simp [switch, ih]
  rw [perBlock, List.flatMap_def]
  congr 1
  apply sound.map_blocks
  intro b block here label
  rw [label]
  cases switch : block.table with
  | none => rw [targets_of_error (table_eq_notSwitch.mpr ⟨block, here, switch⟩)]; rfl
  | some table => rw [targets_of_table (table_eq_ok.mpr ⟨block, here, switch⟩)]; rfl

/-- Every edge is met at its source, as often as the table there names its target. -/
theorem Sound.count_listedEdges (sound : g.Sound) (e : Edge) :
    g.listedEdges.count e = g.occurrences e := by
  have upTo (n : Nat) : ((List.range n).flatMap fun b =>
      (g.targets b).map fun target => Edge.mk b target).count e =
        if e.source < n then g.occurrences e else 0 := by
    induction n with
    | zero => simp
    | succ n ih =>
        rw [List.range_succ, List.flatMap_append, List.count_append, ih, List.flatMap_singleton,
          count_map_edge]
        by_cases here : e.source = n
        · simp [here, occurrences]
        · have before : e.source < n + 1 ↔ e.source < n := by
            rw [Nat.lt_succ_iff_lt_or_eq, or_iff_left here]
          simp [here, before]
  rw [sound.listedEdges_eq, upTo]
  split
  · rfl
  · next outside =>
    cases found : g.table e.source with
    | error fault => rw [occurrences, targets_of_error found, List.count_nil]
    | ok table => exact absurd (lt_size_of_table found) outside

/-- The order in which the counts list their edges makes no difference. -/
theorem count_ofList_of_perm (listing : entries.Perm g.predecessors.edges) (e : Edge) :
    (Census.ofList entries).count e = g.recorded e := by
  have distinct : (entries.map Prod.fst).Nodup :=
    (listing.map Prod.fst).nodup_iff.mpr g.predecessors.nodup_edges
  by_cases counted : g.recorded e = 0
  · rw [counted]
    apply Census.count_ofList_of_not_mem
    intro listed
    obtain ⟨⟨edge, n⟩, member, rfl⟩ := List.mem_map.mp listed
    obtain ⟨same, positive⟩ := Predecessors.mem_edges.mp (listing.mem_iff.mp member)
    exact Nat.ne_of_gt positive (same.symm.trans counted)
  · apply Census.count_ofList_of_mem distinct
    rw [listing.mem_iff, Predecessors.mem_edges]
    exact ⟨rfl, Nat.pos_of_ne_zero counted⟩

/-- No edge before this one is counted differently from how often it is listed, but this one is. -/
structure FirstMiscount (g : Graph) (source target : Label) : Prop where
  parted : (g.targets source).count target ≠ g.predecessors.multiplicity target source
  least : ∀ p t, (g.targets p).count t ≠ g.predecessors.multiplicity t p →
    source < p ∨ source = p ∧ target ≤ t

/-- There is one first miscount at most. -/
theorem FirstMiscount.unique {source target p t : Label} (first : g.FirstMiscount source target)
    (second : g.FirstMiscount p t) : source = p ∧ target = t := by
  have below := first.least p t second.parted
  have above := second.least source target first.parted
  simp only [Label] at *
  omega

variable (sound : g.Sound) (listing : entries.Perm g.predecessors.edges)
include sound listing

/-- An audit finds the first miscount, or there is none. -/
theorem Sound.auditAgainst_cases :
    (g.auditAgainst entries = .ok () ∧ ∀ source target,
        (g.targets source).count target = g.predecessors.multiplicity target source) ∨
      ∃ source target, g.FirstMiscount source target ∧ g.auditAgainst entries =
        .error (.illegal (.miscounted source target ((g.targets source).count target)
          (g.predecessors.multiplicity target source))) := by
  have listed (e : Edge) : (Census.take g.listedEdges).count e = g.occurrences e :=
    (Census.count_take g.listedEdges e).trans (sound.count_listedEdges e)
  have recorded := count_ofList_of_perm listing
  cases found : (Census.take g.listedEdges).firstDifference? (Census.ofList entries) with
  | none =>
      have agreed := Census.firstDifference?_eq_none.mp found
      simp only [listed, recorded] at agreed
      exact .inl ⟨by simp only [auditAgainst, found], fun p t => agreed ⟨p, t⟩⟩
  | some e =>
      obtain ⟨parted, least⟩ := Census.firstDifference?_eq_some found
      simp only [listed, recorded] at parted least
      refine .inr ⟨e.source, e.target, ⟨parted, fun p t other => ?_⟩, ?_⟩
      · exact Edge.le_iff.mp (least ⟨p, t⟩ other)
      · simp only [auditAgainst, found, listed, recorded]
        rfl

/-- The audit passes when tables and counts agree. -/
theorem Sound.auditAgainst_eq_ok :
    g.auditAgainst entries = .ok () ↔ ∀ source target,
      (g.targets source).count target = g.predecessors.multiplicity target source := by
  rcases sound.auditAgainst_cases listing with ⟨passed, agreed⟩ | ⟨source, target, first, failed⟩
  · exact iff_of_true passed agreed
  · rw [failed]
    exact iff_of_false nofun fun agreed => first.parted (agreed source target)

/-- The audit fails with the first miscount and with the numbers of both sides. -/
theorem Sound.auditAgainst_eq_error {fault : Fault} :
    g.auditAgainst entries = .error fault ↔ ∃ source target, g.FirstMiscount source target ∧
      fault = .illegal (.miscounted source target ((g.targets source).count target)
        (g.predecessors.multiplicity target source)) := by
  rcases sound.auditAgainst_cases listing with ⟨passed, agreed⟩ | ⟨source, target, first, failed⟩
  · rw [passed]
    exact iff_of_false nofun fun ⟨p, t, other, _⟩ => other.parted (agreed p t)
  · rw [failed]
    constructor
    · intro same
      cases same
      exact ⟨source, target, first, rfl⟩
    · rintro ⟨p, t, other, rfl⟩
      obtain ⟨rfl, rfl⟩ := first.unique other
      rfl

/-- The order in which the counts list their edges plays no part. -/
theorem Sound.auditAgainst_eq_audit : g.auditAgainst entries = g.audit := by
  cases audited : g.audit with
  | ok =>
      rw [sound.auditAgainst_eq_ok listing]
      exact (sound.auditAgainst_eq_ok (List.Perm.refl _)).mp audited
  | error fault =>
      rw [sound.auditAgainst_eq_error listing]
      exact (sound.auditAgainst_eq_error (List.Perm.refl _)).mp audited

end Switchyard.Graph
