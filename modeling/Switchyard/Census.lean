import Switchyard.Edge
import Std.Data.ExtTreeMap

namespace Switchyard

/-- A census says of every edge how often it occurs. -/
structure Census where
  counts : Std.ExtTreeMap Edge Nat

namespace Census

def empty : Census := ⟨∅⟩

/-- An edge that the census does not know occurs zero times. -/
def count (c : Census) (e : Edge) : Nat := c.counts.getD e 0

/-- One more occurrence is counted. -/
def tick (c : Census) (e : Edge) : Census := ⟨c.counts.insert e (c.count e + 1)⟩

/-- An edge may occur several times. -/
def take (occurrences : List Edge) : Census := occurrences.foldl tick empty

/-- The last entry about an edge is the one that counts. -/
def ofList (entries : List (Edge × Nat)) : Census := ⟨.ofList entries⟩

/-- The first edge that the two count differently. They can only differ about an edge that one of
them knows. -/
def firstDifference? (c d : Census) : Option Edge :=
  (c.counts ∪ d.counts).keys.find? fun e => c.count e != d.count e

@[simp] theorem count_empty (e : Edge) : empty.count e = 0 := by
  simp [empty, count]

/-- A tick counts for its own edge alone. -/
theorem count_tick (c : Census) (e f : Edge) :
    (c.tick e).count f = c.count f + if e = f then 1 else 0 := by
  simp only [tick, count, Std.ExtTreeMap.getD_insert, Std.LawfulEqOrd.compare_eq_iff_eq]
  split <;> simp_all

/-- Counting goes on from any census, one occurrence after the other. -/
theorem count_foldl_tick (c : Census) (occurrences : List Edge) (e : Edge) :
    (occurrences.foldl tick c).count e = c.count e + occurrences.count e := by
  induction occurrences generalizing c with
  | nil => simp
  | cons first rest ih =>
      rw [List.foldl_cons, ih, count_tick, List.count_cons]
      simp only [beq_iff_eq]
      omega

/-- A census that was taken counts what it went through. -/
theorem count_take (occurrences : List Edge) (e : Edge) :
    (take occurrences).count e = occurrences.count e := by
  rw [take, count_foldl_tick, count_empty, Nat.zero_add]

/-- An entry counts as it says when no other one is about its edge. -/
theorem count_ofList_of_mem {entries : List (Edge × Nat)} {e : Edge} {n : Nat}
    (distinct : (entries.map Prod.fst).Nodup) (listed : (e, n) ∈ entries) :
    (ofList entries).count e = n := by
  apply Std.ExtTreeMap.getD_ofList_of_mem Std.ReflOrd.compare_self _ listed
  rw [List.Nodup, List.pairwise_map] at distinct
  exact distinct.imp fun other same => other (Std.LawfulEqOrd.eq_of_compare same)

/-- An edge without an entry occurs zero times. -/
theorem count_ofList_of_not_mem {entries : List (Edge × Nat)} {e : Edge}
    (absent : e ∉ entries.map Prod.fst) : (ofList entries).count e = 0 := by
  apply Std.ExtTreeMap.getD_ofList_of_contains_eq_false
  simpa using absent

/-- An edge that neither knows is counted zero times by both. -/
theorem count_eq_of_not_mem_keys {c d : Census} {e : Edge}
    (unknown : e ∉ (c.counts ∪ d.counts).keys) : c.count e = d.count e := by
  rw [Std.ExtTreeMap.mem_keys, Std.ExtTreeMap.mem_union_iff, not_or] at unknown
  have left : c.count e = 0 := Std.ExtTreeMap.getD_eq_fallback unknown.1
  have right : d.count e = 0 := Std.ExtTreeMap.getD_eq_fallback unknown.2
  rw [left, right]

/-- There is no first difference exactly when all edges are counted alike. -/
theorem firstDifference?_eq_none {c d : Census} :
    c.firstDifference? d = none ↔ ∀ e, c.count e = d.count e := by
  simp only [firstDifference?, List.find?_eq_none, bne_iff_ne, ne_eq, Decidable.not_not]
  constructor
  · intro same e
    by_cases known : e ∈ (c.counts ∪ d.counts).keys
    · exact same e known
    · exact count_eq_of_not_mem_keys known
  · exact fun same e _ => same e

/-- No edge before the first difference is counted differently. -/
theorem firstDifference?_eq_some {c d : Census} {e : Edge}
    (found : c.firstDifference? d = some e) :
    c.count e ≠ d.count e ∧ ∀ f, c.count f ≠ d.count f → e.le f = true := by
  obtain ⟨different, before, after, split, same⟩ := List.find?_eq_some_iff_append.mp found
  refine ⟨by simpa using different, fun f other => ?_⟩
  have listed : f ∈ (c.counts ∪ d.counts).keys :=
    Decidable.byContradiction fun unknown => other (count_eq_of_not_mem_keys unknown)
  have ordered := (c.counts ∪ d.counts).ordered_keys
  rw [split] at listed ordered
  rcases List.mem_append.mp listed with earlier | later
  · exact absurd (by simpa using same f earlier) other
  · rcases List.mem_cons.mp later with rfl | later
    · exact Edge.le_iff.mpr (.inr ⟨rfl, Nat.le_refl _⟩)
    · have cut := List.pairwise_cons.mp (List.pairwise_append.mp ordered).2.1
      exact Edge.le_of_compare (cut.1 f later)

end Census

end Switchyard
