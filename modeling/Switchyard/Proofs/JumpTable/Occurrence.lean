import Switchyard.Proofs.JumpTable.Amendment

namespace Switchyard

variable {σ : Type}

/-- This observer refuses nothing. -/
def Observer.Consents (observer : Observer σ) : Prop :=
  ∀ change heard, Step.outcome (observer change) heard = .ok ()

namespace JumpTable

section Positions

variable {targets : List Label} {target other : Label} {index : Nat}

/-- An inserted target occurs first at its index, unless it occurred before that. -/
theorem idxOf?_insertIdx_self (inside : index ≤ targets.length) :
    (targets.insertIdx index target).idxOf? target =
      some (min index ((targets.idxOf? target).getD index)) := by
  induction targets generalizing index with
  | nil =>
      obtain rfl : index = 0 := Nat.le_zero.mp inside
      simp
  | cons first rest ih =>
      cases index with
      | zero => simp [List.idxOf?_cons]
      | succ index =>
          have later := ih (Nat.le_of_succ_le_succ inside)
          rw [List.insertIdx_succ_cons, List.idxOf?_cons, List.idxOf?_cons, later]
          by_cases here : first = target
          · simp [here]
          · cases rest.idxOf? target <;> simp [here]

/-- Other targets make way when they occur first at the index or behind it. -/
theorem idxOf?_insertIdx_ne (inside : index ≤ targets.length) (apart : other ≠ target) :
    (targets.insertIdx index target).idxOf? other =
      (targets.idxOf? other).map fun place => if place < index then place else place + 1 := by
  induction targets generalizing index with
  | nil =>
      obtain rfl : index = 0 := Nat.le_zero.mp inside
      simp [List.idxOf?_cons, apart.symm]
  | cons first rest ih =>
      cases index with
      | zero => simp [List.idxOf?_cons, apart.symm]
      | succ index =>
          have later := ih (Nat.le_of_succ_le_succ inside)
          rw [List.insertIdx_succ_cons, List.idxOf?_cons, List.idxOf?_cons, later]
          by_cases here : first = other
          · simp [here]
          · cases rest.idxOf? other with
            | none => simp [here]
            | some place =>
                simp only [beq_iff_eq, here, ↓reduceIte, Option.map_some, Option.some.injEq]
                split <;> split <;> omega

/-- Other targets move up when they occur first behind the entry that leaves. -/
theorem idxOf?_eraseIdx_ne (holds : targets[index]? = some target) (apart : other ≠ target) :
    (targets.eraseIdx index).idxOf? other =
      (targets.idxOf? other).map fun place => if index < place then place - 1 else place := by
  induction targets generalizing index with
  | nil => simp at holds
  | cons first rest ih =>
      cases index with
      | zero =>
          obtain rfl : first = target := by simpa using holds
          cases found : rest.idxOf? other <;> simp [List.idxOf?_cons, apart.symm, found]
      | succ index =>
          have later := ih (by simpa using holds)
          rw [List.eraseIdx_cons_succ, List.idxOf?_cons, List.idxOf?_cons, later]
          by_cases here : first = other
          · simp [here]
          · cases rest.idxOf? other with
            | none => simp [here]
            | some place =>
                simp only [beq_iff_eq, here, ↓reduceIte, Option.map_some, Option.some.injEq]
                split <;> split <;> omega

end Positions

/-- The later table has the target inserted at the index, and each search has the answer that this
leads to. -/
structure Inserted (index : Nat) (target : Label) (table later : JumpTable) : Prop where
  sameOwner : later.owner = table.owner
  targets : later.targets = table.targets.insertIdx index target
  found : later.indexOf? target = some (min index ((table.indexOf? target).getD index))
  others : ∀ other, other ≠ target →
    later.indexOf? other =
      (table.indexOf? other).map fun place => if place < index then place else place + 1

/-- The later table lacks the entry at the index, which held the target. -/
structure Removed (index : Nat) (target : Label) (table later : JumpTable) : Prop where
  sameOwner : later.owner = table.owner
  targets : later.targets = table.targets.eraseIdx index
  counted : later.targets.count target + 1 = table.targets.count target
  ordered : later.targets.filter (· ≠ target) = table.targets.filter (· ≠ target)
  others : ∀ other, other ≠ target →
    later.indexOf? other =
      (table.indexOf? other).map fun place => if index < place then place - 1 else place

/-- The target is removed this many times, and then there is none left to remove. -/
inductive Drains (observer : Observer σ) (target : Label) :
    Nat → Observed σ → Observed σ → Prop where
  | done {s t : Observed σ} (absent : remove observer target s = .ok false t) :
      Drains observer target 0 s t
  | again {count : Nat} {s t u : Observed σ} (removed : remove observer target s = .ok true t)
      (rest : Drains observer target count t u) : Drains observer target (count + 1) s u

variable {observer : Observer σ} {table : JumpTable} {owner target : Label} {index : Nat}
  {s : Observed σ}

/-- A table contains what it lists. -/
theorem contains_iff_mem : table.contains target = true ↔ target ∈ table.targets := by
  rw [contains, List.contains_iff_mem]

/-- A target has a first occurrence exactly when it is listed. -/
theorem isSome_indexOf?_iff_mem :
    (table.indexOf? target).isSome = true ↔ target ∈ table.targets := List.isSome_idxOf?

/-- An observer that always consents lets a target in at any place. -/
theorem insert_of_consents (consents : observer.Consents) (attached : s.table.owner = some owner)
    (inside : index ≤ s.table.length) :
    ∃ t, insert observer index target s = .ok () t ∧ Inserted index target s.table t.table := by
  have pending : (Amendment.insert index target).prospect owner s.table.targets =
      .pending ⟨owner, none, some target⟩ (s.table.targets.insertIdx index target) () :=
    if_pos inside
  obtain ⟨t, ended, kept, targets⟩ :=
    Amendment.perform_of_pending attached pending (consents _ s.heard)
  refine ⟨t, ended, kept, targets, ?_, fun other apart => ?_⟩
  · rw [indexOf?, targets]
    exact idxOf?_insertIdx_self inside
  · rw [indexOf?, targets]
    exact idxOf?_insertIdx_ne inside apart

/-- An observer that always consents lets the first occurrence go. -/
theorem remove_of_consents (consents : observer.Consents) (attached : s.table.owner = some owner)
    (found : s.table.indexOf? target = some index) :
    ∃ t, remove observer target s = .ok true t ∧ Removed index target s.table t.table := by
  rw [indexOf?] at found
  obtain ⟨inside, here, _⟩ := List.idxOf?_eq_some_iff.mp found
  have present : target ∈ s.table.targets := List.mem_of_getElem here
  have holds : s.table.targets[index]? = some target := List.getElem?_eq_some_iff.mpr ⟨inside, here⟩
  have erased : s.table.targets.erase target = s.table.targets.eraseIdx index := by
    rw [List.erase_eq_eraseIdx, found]
  have pending : (Amendment.remove target).prospect owner s.table.targets =
      .pending ⟨owner, some target, none⟩ (s.table.targets.erase target) true := if_pos present
  obtain ⟨t, ended, kept, targets⟩ :=
    Amendment.perform_of_pending attached pending (consents _ s.heard)
  refine ⟨t, ended, kept, targets.trans erased, ?_, ?_, fun other apart => ?_⟩
  · have counted := List.count_pos_iff.mpr present
    rw [targets, List.count_erase_self]
    omega
  · rw [targets, ← List.erase_filter, List.erase_of_not_mem]
    simp
  · rw [indexOf?, targets, erased]
    exact idxOf?_eraseIdx_ne holds apart

/-- Without an occurrence nothing is asked and nothing is changed. -/
theorem remove_of_absent (attached : s.table.owner = some owner)
    (absent : target ∉ s.table.targets) :
    remove observer target s = .ok false s := by
  have settled : (Amendment.remove target).prospect owner s.table.targets = .settled (.ok false) :=
    if_neg absent
  exact Amendment.perform_of_settled attached settled

/-- Removals that go on to the end all have the same number and the same end. -/
theorem Drains.unique {count others : Nat} {t u : Observed σ}
    (first : Drains observer target count s t) (second : Drains observer target others s u) :
    others = count ∧ u = t := by
  induction first generalizing others with
  | done absent =>
      cases second with
      | done again =>
          cases absent.symm.trans again
          exact ⟨rfl, rfl⟩
      | again removed _ => cases absent.symm.trans removed
  | again removed _ ih =>
      cases second with
      | done absent => cases removed.symm.trans absent
      | again again rest =>
          cases removed.symm.trans again
          obtain ⟨rfl, rfl⟩ := ih rest
          exact ⟨rfl, rfl⟩

/-- The induction is on the occurrences that are left, and the other entries stay in order. -/
theorem drains_of_consents (consents : observer.Consents)
    (attached : s.table.owner = some owner) (target : Label) :
    ∃ t, Drains observer target (s.table.targets.count target) s t ∧
      t.table.owner = some owner ∧ t.table.targets = s.table.targets.filter (· ≠ target) := by
  generalize occurrences : s.table.targets.count target = count
  induction count generalizing s with
  | zero =>
      have absent : target ∉ s.table.targets := List.count_eq_zero.mp occurrences
      refine ⟨s, .done (remove_of_absent attached absent), attached, ?_⟩
      rw [eq_comm, List.filter_eq_self]
      intro other present
      exact decide_eq_true (ne_of_mem_of_not_mem present absent)
  | succ count ih =>
      have present : target ∈ s.table.targets :=
        List.count_pos_iff.mp (occurrences ▸ Nat.succ_pos count)
      obtain ⟨index, found⟩ := Option.isSome_iff_exists.mp (isSome_indexOf?_iff_mem.mpr present)
      obtain ⟨t, removed, effect⟩ := remove_of_consents consents attached found
      have fewer : t.table.targets.count target = count := by
        have counted := effect.counted
        omega
      obtain ⟨u, rest, kept, left⟩ := ih (effect.sameOwner.trans attached) fewer
      exact ⟨u, .again removed rest, kept, left.trans effect.ordered⟩

/-- With a consenting observer every insertion and every removal of an attached table succeeds, and
the first occurrences follow. A target is contained when it has a first occurrence, and it is
removed as often as it occurs. -/
theorem occurrences_follow (consents : observer.Consents) (attached : table.owner = some owner)
    (heard : σ) :
    (∀ index target, index ≤ table.length → ∃ t,
        insert observer index target ⟨table, heard⟩ = .ok () t ∧
          Inserted index target table t.table) ∧
      (∀ target index, table.indexOf? target = some index → ∃ t,
        remove observer target ⟨table, heard⟩ = .ok true t ∧
          Removed index target table t.table) ∧
      (∀ target, table.indexOf? target = none →
        remove observer target ⟨table, heard⟩ = .ok false ⟨table, heard⟩) ∧
      (∀ target, (table.contains target = true ↔ (table.indexOf? target).isSome = true) ∧
        (table.contains target = true ↔ 0 < table.targets.count target)) ∧
      ∀ target, ∃ t, t.table.owner = some owner ∧
        t.table.targets = table.targets.filter (· ≠ target) ∧
          ∀ count u, Drains observer target count ⟨table, heard⟩ u ↔
            count = table.targets.count target ∧ u = t := by
  refine ⟨fun index target inside => insert_of_consents consents attached inside,
    fun target index found => remove_of_consents (s := ⟨table, heard⟩) consents attached found,
    fun target absent => ?_, fun target => ⟨?_, ?_⟩, fun target => ?_⟩
  · exact remove_of_absent attached (List.idxOf?_eq_none_iff.mp absent)
  · rw [contains_iff_mem, isSome_indexOf?_iff_mem]
  · rw [contains_iff_mem, List.count_pos_iff]
  · obtain ⟨t, drained, kept, left⟩ := drains_of_consents (s := ⟨table, heard⟩) consents
      attached target
    refine ⟨t, kept, left, fun count u => ⟨drained.unique, ?_⟩⟩
    rintro ⟨rfl, rfl⟩
    exact drained

/-- Target 2 is inserted in front of its first occurrence, and target 1 is removed once and then for
good. -/
theorem occurrences_follow_in_short_table :
    let table : JumpTable := { ofList [1, 2, 1] with owner := some 0 }
    table.owner = some 0 ∧
      (∃ t, insert Observer.accepting 0 2 ⟨table, ()⟩ = .ok () t ∧ t.table.targets = [2, 1, 2, 1] ∧
        t.table.indexOf? 2 = some 0 ∧ t.table.indexOf? 1 = some 1) ∧
      (∃ t, remove Observer.accepting 1 ⟨table, ()⟩ = .ok true t ∧ t.table.targets = [2, 1] ∧
        t.table.indexOf? 2 = some 0) ∧
      remove Observer.accepting 3 ⟨table, ()⟩ = .ok false ⟨table, ()⟩ ∧
      ∃ t, t.table.targets = [2] ∧ Drains Observer.accepting 1 2 ⟨table, ()⟩ t := by
  intro table
  have consents : Observer.accepting.Consents := fun _ _ => rfl
  have attached : table.owner = some 0 := rfl
  obtain ⟨inserted, removed, absent, _, drained⟩ := occurrences_follow consents attached ()
  obtain ⟨t, insertion, inserts⟩ := inserted 0 2 (by decide)
  obtain ⟨u, removal, removes⟩ := removed 1 0 (by decide)
  obtain ⟨v, _, left, drains⟩ := drained 1
  refine ⟨attached, ⟨t, insertion, inserts.targets, inserts.found, ?_⟩,
    ⟨u, removal, removes.targets, ?_⟩, absent 3 (by decide), v, left, (drains 2 v).mpr ⟨rfl, rfl⟩⟩
  · rw [inserts.others 1 (by decide)]
    rfl
  · rw [removes.others 2 (by decide)]
    rfl

end JumpTable

end Switchyard
