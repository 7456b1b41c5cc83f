import Switchyard.Label
import Std.Data.ExtTreeMap

namespace Switchyard

/-- A tally counts how often each label occurs. A label that does not occur is not stored, so every
stored count is positive. -/
structure Tally where
  counts : Std.ExtTreeMap Label Nat
  positive : ∀ {b : Label} {n : Nat}, counts[b]? = some n → 0 < n

namespace Tally

def empty : Tally := ⟨∅, by simp⟩

/-- A label that is not stored occurs zero times. -/
def count (t : Tally) (b : Label) : Nat := t.counts.getD b 0

/-- One more occurrence is counted. -/
def add (t : Tally) (b : Label) : Tally where
  counts := t.counts.insert b (t.count b + 1)
  positive := by
    intro c n h
    rw [Std.ExtTreeMap.getElem?_insert] at h
    split at h
    · cases h; omega
    · exact t.positive h

/-- One occurrence fewer is counted, and the last one takes the label away. -/
def remove? (t : Tally) (b : Label) : Option Tally :=
  match t.count b with
  | 0 => none
  | 1 => some {
      counts := t.counts.erase b
      positive := by
        intro c n h
        rw [Std.ExtTreeMap.getElem?_erase] at h
        split at h
        · cases h
        · exact t.positive h }
  | n + 2 => some {
      counts := t.counts.insert b (n + 1)
      positive := by
        intro c m h
        rw [Std.ExtTreeMap.getElem?_insert] at h
        split at h
        · cases h; omega
        · exact t.positive h }

/-- The labels that occur are listed in increasing order, each with its count. -/
def toList (t : Tally) : List (Label × Nat) := t.counts.toList

/-- All occurrences of all labels. -/
def total (t : Tally) : Nat := t.toList.foldr (fun entry n => entry.2 + n) 0

@[simp] theorem count_empty (b : Label) : empty.count b = 0 := by
  simp [empty, count]

/-- Another occurrence counts for its own label alone. -/
theorem count_add (t : Tally) (b c : Label) :
    (t.add b).count c = t.count c + if b = c then 1 else 0 := by
  simp only [add, count, Std.ExtTreeMap.getD_insert, Nat.compare_eq_eq]
  split <;> simp_all

/-- Only a label that does not occur cannot be removed. -/
theorem remove?_eq_none {t : Tally} {b : Label} : t.remove? b = none ↔ t.count b = 0 := by
  unfold remove?
  split <;> simp_all

/-- A removal that succeeds is undone by counting the label again. -/
theorem count_of_remove? {t s : Tally} {b : Label} (h : t.remove? b = some s) (c : Label) :
    t.count c = s.count c + if b = c then 1 else 0 := by
  unfold remove? at h
  split at h
  · cases h
  · next one =>
    cases h
    simp only [count, Std.ExtTreeMap.getD_erase, Nat.compare_eq_eq] at one ⊢
    split <;> simp_all
  · next n many =>
    cases h
    simp only [count, Std.ExtTreeMap.getD_insert, Nat.compare_eq_eq] at many ⊢
    split <;> simp_all

/-- Exactly the positive counts are stored. -/
theorem getElem?_counts (t : Tally) (b : Label) :
    t.counts[b]? = if t.count b = 0 then none else some (t.count b) := by
  cases h : t.counts[b]? with
  | none => simp [count, Std.ExtTreeMap.getD_eq_getD_getElem?, h]
  | some n =>
    have := t.positive h
    have counted : t.count b = n := by simp [count, Std.ExtTreeMap.getD_eq_getD_getElem?, h]
    rw [if_neg (by omega), counted]

/-- A tally lists what occurs, with its positive count. -/
theorem mem_toList {t : Tally} {b : Label} {n : Nat} :
    (b, n) ∈ t.toList ↔ t.count b = n ∧ 0 < n := by
  rw [toList, Std.ExtTreeMap.mem_toList_iff_getElem?_eq_some, getElem?_counts]
  split <;> grind

/-- Each label is listed once, in increasing order. -/
theorem ordered_toList (t : Tally) : t.toList.Pairwise fun a b => a.1 < b.1 :=
  Std.ExtTreeMap.ordered_keys_toList.imp Nat.compare_eq_lt.1

/-- A tally is its counts. -/
theorem ext_count {t s : Tally} (same : ∀ b, t.count b = s.count b) : t = s := by
  have : t.counts = s.counts := Std.ExtTreeMap.ext_getElem? fun b => by
    rw [getElem?_counts, getElem?_counts, same]
  cases t; cases s; cases this; rfl

end Tally

end Switchyard
