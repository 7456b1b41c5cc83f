import Switchyard.Proofs.Graph.Accounting
import Mathlib.Algebra.BigOperators.Group.Finset.Sigma
import Mathlib.Algebra.Order.BigOperators.Group.List
import Mathlib.Data.Set.Card
import Mathlib.Order.Interval.Finset.Nat

namespace Switchyard

namespace Predecessors

variable {p : Predecessors} {target : Label} {bound : Nat}

/-- The row of a block leaves out the blocks that do not lead to it. -/
theorem inDegree_eq_sum_multiplicity
    (closed : ∀ source, 0 < p.multiplicity target source → source < bound) :
    p.inDegree target = ((List.range bound).map (p.multiplicity target)).sum := by
  have distinct : ((p.into target).map Prod.fst).Nodup := by
    rw [List.Nodup, List.pairwise_map]
    exact (p.ordered_into target).imp Nat.ne_of_lt
  have counts : (p.into target).map Prod.snd =
      ((p.into target).map Prod.fst).map (p.multiplicity target) := by
    rw [List.map_map]
    apply List.map_congr_left
    rintro ⟨source, n⟩ present
    exact (mem_into.mp present).1.symm
  have inside : ((p.into target).map Prod.fst).toFinset ⊆ Finset.range bound := by
    intro source present
    obtain ⟨⟨_, n⟩, listed, rfl⟩ := List.mem_map.mp (List.mem_toFinset.mp present)
    obtain ⟨rfl, positive⟩ := mem_into.mp listed
    exact Finset.mem_range.mpr (closed _ positive)
  -- A source that the row leaves out counts nothing.
  have silent (source : Label) (absent : source ∉ ((p.into target).map Prod.fst).toFinset) :
      p.multiplicity target source = 0 := by
    by_contra positive
    have present := mem_into.mpr ⟨rfl, Nat.pos_of_ne_zero positive⟩
    exact absent (List.mem_toFinset.mpr (List.mem_map_of_mem present))
  rw [inDegree_eq_sum, counts, ← List.sum_toFinset _ distinct, ← List.sum_toFinset _
    List.nodup_range, List.toFinset_range]
  exact Finset.sum_subset inside fun source _ => silent source

/-- A count is a part of the in-degree. -/
theorem multiplicity_le_inDegree (p : Predecessors) (target source : Label) :
    p.multiplicity target source ≤ p.inDegree target := by
  by_cases counted : 0 < p.multiplicity target source
  · rw [inDegree_eq_sum]
    exact List.single_le_sum (fun _ _ => Nat.zero_le _) _
      (List.mem_map_of_mem (mem_into.mpr ⟨rfl, counted⟩))
  · exact (Nat.eq_zero_of_not_pos counted).le.trans (Nat.zero_le _)

end Predecessors

/-- Machine words are added without overflow when their sum is a machine word itself. -/
theorem Numeral.foldlM_sum? {start : Nat} {numbers : List Nat}
    (fits : start + numbers.sum < bound) :
    numbers.foldlM sum? start = some (start + numbers.sum) := by
  induction numbers generalizing start with
  | nil => rfl
  | cons number rest ih =>
      rw [List.sum_cons, ← Nat.add_assoc] at fits ⊢
      have first : sum? start number = some (start + number) := if_pos (by omega)
      rw [List.foldlM_cons, first]
      exact ih fits

/-- Numbers whose exact sum is a machine word can be added up in any order. -/
theorem Numeral.foldlM_sum?_of_sum_eq {numbers : List Nat} {total : Nat}
    (same : numbers.sum = total) (fits : total < bound) :
    numbers.foldlM sum? 0 = some total := by
  rw [foldlM_sum? (by omega), same, Nat.zero_add]

namespace Graph

/-- The targets that all tables list, block by block. -/
def entries (g : Graph) : List Label := g.switches.flatMap Prod.snd

/-- The number of entries that all tables hold together. -/
def load (g : Graph) : Nat := (g.switches.map fun switch => switch.2.length).sum

/-- The places of a target: the switches that list it, each with the positions in its table. -/
def places (g : Graph) (t : Label) : Set (Label × Nat) :=
  {place | ∃ table, g.table place.1 = .ok table ∧ table.targets[place.2]? = some t}

/-- The positions of a target in one table. -/
def positions (targets : List Label) (t : Label) : Finset Nat :=
  (Finset.range targets.length).filter (targets[·]? = some t)

variable {g : Graph} {t : Label}

/-- Counted by tables, the entries are the lengths. -/
theorem length_entries (g : Graph) : g.entries.length = g.load := List.length_flatMap

/-- The entries are the targets of the edges that are listed. -/
theorem target_listedEdges (g : Graph) : g.listedEdges.map Edge.target = g.entries := by
  rw [listedEdges, entries, List.map_flatMap]
  congr 1
  funext switch
  rw [List.map_map]
  exact List.map_id' switch.2

/-- The entries stand in block order. -/
theorem Sound.entries_eq (sound : g.Sound) :
    g.entries = (List.range g.size).flatMap g.targets := by
  rw [← target_listedEdges, sound.listedEdges_eq, List.map_flatMap]
  congr 1
  funext b
  rw [List.map_map]
  exact List.map_id' (g.targets b)

/-- The counts are kept by target and the tables by source, but they count the same edges. -/
theorem Reachable.inDegree_eq_count (reached : g.Reachable) (t : Label) :
    g.predecessors.inDegree t = g.entries.count t := by
  have accounted := reached.accounted
  have closed (source : Label) (listed : 0 < g.predecessors.multiplicity t source) :
      source < g.size := by
    rw [accounted.counted] at listed
    exact lt_size_of_mem_targets (List.count_pos_iff.mp listed)
  rw [Predecessors.inDegree_eq_sum_multiplicity closed, reached.keeps.sound.entries_eq,
    List.count_flatMap]
  congr 1
  apply List.map_congr_left
  intro source _
  exact accounted.counted source t

/-- A place of a target is a block and a case. -/
theorem mem_places {place : Label × Nat} :
    place ∈ g.places t ↔ (g.targets place.1)[place.2]? = some t := by
  rcases found : g.table place.1 with fault | table
  · simp [places, found, targets_of_error found]
  · simp [places, found, targets_of_table found]

/-- A position of a target is a case that leads to it. -/
theorem mem_positions {targets : List Label} {position : Nat} :
    position ∈ positions targets t ↔ targets[position]? = some t := by
  rw [positions, Finset.mem_filter, Finset.mem_range, and_iff_right_iff_imp]
  exact fun here => (List.getElem?_eq_some_iff.mp here).1

/-- A target has as many positions in a table as it occurs there. -/
theorem card_positions (targets : List Label) (t : Label) :
    (positions targets t).card = targets.count t := by
  have listed : (List.range targets.length).map (targets[·]?) = targets.map some := by
    apply List.ext_getElem <;> simp
  calc (positions targets t).card
      = (List.range targets.length).countP (targets[·]? = some t) :=
        (List.countP_eq_length_filter).symm
    _ = ((List.range targets.length).map (targets[·]?)).count (some t) := by
        rw [List.count, List.countP_map]
        apply List.countP_congr
        simp
    _ = targets.count t := by
        rw [listed, List.count_map_of_injective _ _ (Option.some_injective Label)]

/-- The places are gone through block by block. -/
theorem places_eq_image (g : Graph) (t : Label) :
    g.places t = Equiv.sigmaEquivProd Label Nat ''
      ((Finset.range g.size).sigma fun b => positions (g.targets b) t) := by
  ext ⟨b, position⟩
  rw [mem_places, Set.mem_image]
  constructor
  · intro here
    have inside := Finset.mem_range.mpr (lt_size_of_mem_targets (List.mem_of_getElem? here))
    exact ⟨⟨b, position⟩, Finset.mem_sigma.mpr ⟨inside, mem_positions.mpr here⟩, rfl⟩
  · rintro ⟨⟨_, _⟩, present, same⟩
    cases same
    exact mem_positions.mp (Finset.mem_sigma.mp present).2

/-- A target has as many places as entries. -/
theorem Sound.encard_places (sound : g.Sound) (t : Label) :
    (g.places t).encard = g.entries.count t := by
  rw [places_eq_image, (Equiv.injective _).encard_image, Set.encard_coe_eq_coe_finsetCard,
    Finset.card_sigma, sound.entries_eq, List.count_flatMap, ← List.toFinset_range,
    List.sum_toFinset _ List.nodup_range]
  simp only [card_positions]
  rfl

/-- Every entry is the label of a block, so the blocks have all entries between them. -/
theorem Sound.sum_count_entries (sound : g.Sound) :
    ((List.range g.size).map g.entries.count).sum = g.load := by
  have closed : ∀ t ∈ g.entries, t ∈ Finset.range g.size := by
    intro t listed
    rw [sound.entries_eq] at listed
    obtain ⟨b, _, listed⟩ := List.mem_flatMap.mp listed
    exact Finset.mem_range.mpr (sound.closed b t listed)
  rw [← length_entries, ← List.sum_toFinset _ List.nodup_range, List.toFinset_range]
  simpa only [Multiset.coe_count, Multiset.coe_card] using
    Multiset.sum_count_eq_card (m := (g.entries : Multiset Label)) closed

end Graph

end Switchyard
