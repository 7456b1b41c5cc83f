import Switchyard.Predecessors
import Switchyard.Proofs.Step

namespace Switchyard

/-- A change is refused for a stray block first, and then for an edge that is not counted. -/
def Change.verdict (change : Change) (wired : Label → Bool) (count : Label → Nat) :
    Except Fault Unit :=
  match change.blocks.find? (!wired ·) with
  | some stray => .error (.illegal (.notWired stray))
  | none =>
      match change.old with
      | none => .ok ()
      | some old =>
          if count old = 0 then .error (.illegal (.edgeMissing change.owner old)) else .ok ()

namespace Predecessors

variable {p r : Predecessors} {source : Label} {target : Option Label} {change : Change}

/-- A wired block may get another row. -/
theorem isWired_insert (p : Predecessors) {target : Label} (row : Tally) (b : Label)
    (wired : p.isWired target = true) :
    (Predecessors.mk (p.rows.insert target row)).isWired b = p.isWired b := by
  rw [Bool.eq_iff_iff]
  simp only [isWired, Std.ExtTreeMap.contains_insert, Bool.or_eq_true, Nat.compare_eq_eq,
    beq_iff_eq] at *
  constructor
  · rintro (rfl | present)
    · exact wired
    · exact present
  · exact Or.inr

/-- An edge to a wired block wires nothing. -/
theorem isWired_gain (b : Label) (wired : ∀ t, target = some t → p.isWired t = true) :
    (p.gain source target).isWired b = p.isWired b := by
  cases target with
  | none => rfl
  | some t => exact isWired_insert p _ b (wired t rfl)

/-- An edge that is lost takes no row with it. -/
theorem isWired_lose (b : Label) (wired : ∀ t, target = some t → p.isWired t = true)
    (lost : lose source target p = .ok () r) : r.isWired b = p.isWired b := by
  cases target with
  | none => cases lost; rfl
  | some t =>
      simp only [lose] at lost
      split at lost
      · cases lost
      · cases lost
        exact isWired_insert p _ b (wired t rfl)

/-- One edge more is counted when there is a target. -/
theorem multiplicity_gain_count (p : Predecessors) (source : Label) (target : Option Label)
    (t q : Label) :
    (p.gain source target).multiplicity t q =
      p.multiplicity t q + if source = q then target.toList.count t else 0 := by
  cases target with
  | none => simp [gain]
  | some b =>
      rw [multiplicity_gain]
      by_cases same : source = q <;> simp [same, List.count_singleton]

/-- One edge less is counted when there is a target. -/
theorem multiplicity_lose_count (lost : lose source target p = .ok () r) (t q : Label) :
    p.multiplicity t q =
      r.multiplicity t q + if source = q then target.toList.count t else 0 := by
  cases target with
  | none => cases lost; simp
  | some b =>
      rw [multiplicity_lose lost]
      by_cases same : source = q <;> simp [same, List.count_singleton]

/-- An edge is lost when it is counted, and the absence of an edge always is. -/
theorem outcome_lose (source : Label) (target : Option Label) (p : Predecessors) :
    Step.outcome (lose source target) p =
      match target with
      | none => .ok ()
      | some t =>
          if p.multiplicity t source = 0 then .error (.illegal (.edgeMissing source t))
          else .ok () := by
  cases target with
  | none => rfl
  | some t =>
      simp only [Step.outcome]
      rcases lost : lose source (some t) p with ⟨_, r⟩ | ⟨fault, r⟩
      · have counted := multiplicity_lose lost t source
        simp only [and_self, ↓reduceIte] at counted
        simp [counted]
      · obtain ⟨zero, rfl, _⟩ := lose_eq_error.mp lost
        simp [zero]

/-- An edge that cannot be lost is left as it is, with all others. -/
theorem lose_of_refused {fault : Fault} (refused : lose source target p = .error fault r) :
    r = p := by
  cases target with
  | none => cases refused
  | some t => exact (lose_eq_error.mp refused).2.2

/-- The first block that is not wired is named, and looking at blocks changes nothing. -/
theorem forM_requireWired (blocks : List Label) (p : Predecessors) :
    blocks.forM requireWired p =
      match blocks.find? (!p.isWired ·) with
      | some stray => .error (.illegal (.notWired stray)) p
      | none => .ok () p := by
  induction blocks with
  | nil => rfl
  | cons b rest ih =>
      simp only [List.forM_eq_forM] at ih
      simp only [List.forM_eq_forM, List.forM_cons, bind, EStateM.bind, requireWired]
      cases known : p.isWired b with
      | true => simp [ih, known]
      | false => simp [known]

/-- A change stops at a stray block, then at an edge that is not counted, and nothing behind these two
checks can fail. -/
theorem observer_eq (change : Change) (p : Predecessors) :
    observer change p =
      match change.blocks.find? (!p.isWired ·) with
      | some stray => .error (.illegal (.notWired stray)) p
      | none =>
          match lose change.owner change.old p with
          | .ok _ m => .ok () (m.gain change.owner change.new)
          | .error fault m => .error fault m := by
  simp only [observer, bind, EStateM.bind, forM_requireWired]
  cases change.blocks.find? (!p.isWired ·) with
  | some stray => rfl
  | none =>
      simp only
      cases lose change.owner change.old p <;> rfl

/-- A change that is accepted loses one edge and gains another. -/
theorem observer_cases (accepted : observer change p = .ok () r) :
    (∀ b ∈ change.blocks, p.isWired b = true) ∧
      ∃ m, lose change.owner change.old p = .ok () m ∧ m.gain change.owner change.new = r := by
  rw [observer_eq] at accepted
  split at accepted
  · cases accepted
  · next allWired =>
    refine ⟨by simpa using allWired, ?_⟩
    rcases lost : lose change.owner change.old p with ⟨_, m⟩ | ⟨fault, m⟩
    · rw [lost] at accepted
      cases accepted
      exact ⟨m, rfl, rfl⟩
    · rw [lost] at accepted
      cases accepted

/-- No change wires a block. -/
theorem isWired_observer (accepted : observer change p = .ok () r) (b : Label) :
    r.isWired b = p.isWired b := by
  obtain ⟨wired, m, lost, rfl⟩ := observer_cases accepted
  have oldWired : ∀ t, change.old = some t → p.isWired t = true := by
    intro t here
    exact wired t (by simp [Change.blocks, here])
  have unchanged (c : Label) : m.isWired c = p.isWired c := isWired_lose c oldWired lost
  rw [isWired_gain b, unchanged]
  intro t here
  rw [unchanged]
  exact wired t (by simp [Change.blocks, here])

/-- Only the counts of the owner change, by one edge on each side. -/
theorem multiplicity_observer (accepted : observer change p = .ok () r) (t q : Label) :
    r.multiplicity t q + (if change.owner = q then change.old.toList.count t else 0) =
      p.multiplicity t q + if change.owner = q then change.new.toList.count t else 0 := by
  obtain ⟨_, m, lost, rfl⟩ := observer_cases accepted
  rw [multiplicity_gain_count, multiplicity_lose_count lost]
  omega

/-- Every check comes before the first count that moves, so a refused change leaves no trace. -/
theorem observer_of_refused {fault : Fault} (refused : observer change p = .error fault r) :
    r = p := by
  rw [observer_eq] at refused
  split at refused
  · cases refused
    rfl
  · rcases lost : lose change.owner change.old p with ⟨_, m⟩ | ⟨_, m⟩
    · rw [lost] at refused
      cases refused
    · rw [lost] at refused
      cases refused
      exact lose_of_refused lost

/-- The counts answer with their verdict. -/
theorem outcome_observer (p : Predecessors) (change : Change) :
    Step.outcome (observer change) p =
      change.verdict p.isWired (p.multiplicity · change.owner) := by
  unfold Change.verdict
  simp only [← outcome_lose, Step.outcome, observer_eq]
  cases change.blocks.find? (!p.isWired ·) with
  | some stray => rfl
  | none =>
      simp only
      cases lose change.owner change.old p <;> rfl

/-- Exactly the wired blocks have rows. -/
theorem getElem?_rows (p : Predecessors) (b : Label) :
    p.rows[b]? = if p.isWired b = true then some (p.row b) else none := by
  simp only [isWired, row, Std.ExtTreeMap.contains_eq_isSome_getElem?,
    Std.ExtTreeMap.getD_eq_getD_getElem?]
  cases p.rows[b]? <;> rfl

/-- The wired blocks and the counts between them are all there is. -/
theorem ext_multiplicity {p q : Predecessors} (sameWired : ∀ b, p.isWired b = q.isWired b)
    (sameCounts : ∀ target source, p.multiplicity target source = q.multiplicity target source) :
    p = q := by
  have sameRows : p.rows = q.rows := by
    apply Std.ExtTreeMap.ext_getElem?
    intro b
    have sameRow : p.row b = q.row b := Tally.ext_count (sameCounts b)
    rw [getElem?_rows, getElem?_rows, sameWired, sameRow]
  cases p
  cases q
  cases sameRows
  rfl

end Predecessors

end Switchyard
