import Switchyard.Proofs.Edit.Plan
import Mathlib.Data.List.Perm.Basic

namespace Switchyard

variable {α β : Type}

/-- The old target gives way to the new one, and the other targets stay. -/
def Change.Exchanges (change : Change) (before later : List Label) : Prop :=
  ∃ others, before.Perm (change.old.toList ++ others) ∧ later.Perm (change.new.toList ++ others)

namespace Change.Exchanges

variable {change : Change} {before later : List Label}

/-- A target is listed once less where it is old, and once more where it is new. -/
theorem count (exchanged : change.Exchanges before later) (t : Label) :
    later.count t + change.old.toList.count t = before.count t + change.new.toList.count t := by
  obtain ⟨others, gone, come⟩ := exchanged
  rw [gone.count_eq, come.count_eq, List.count_append, List.count_append]
  omega

/-- What is taken away was there. -/
theorem old_mem (exchanged : change.Exchanges before later) {t : Label}
    (old : change.old = some t) : t ∈ before := by
  obtain ⟨others, gone, _⟩ := exchanged
  rw [gone.mem_iff, old]
  exact List.mem_append_left others (List.mem_singleton.mpr rfl)

/-- What is there was there before or is new. -/
theorem mem_later (exchanged : change.Exchanges before later) {t : Label} (present : t ∈ later) :
    t ∈ before ∨ change.new = some t := by
  obtain ⟨others, gone, come⟩ := exchanged
  rw [come.mem_iff, List.mem_append, Option.mem_toList] at present
  rcases present with new | stayed
  · exact Or.inr new
  · rw [gone.mem_iff]
    exact Or.inl (List.mem_append_right _ stayed)

end Change.Exchanges

/-- Every move speaks for the owner, and its change is what it does to the targets. -/
def Move.Faithful (owner : Label) : List Label → List Move → Prop
  | _, [] => True
  | targets, move :: rest =>
      (move.change.owner = owner ∧ move.change.Exchanges targets (move.update targets)) ∧
        Faithful owner (move.update targets) rest

namespace Move

variable {owner : Label}

/-- Each target that is appended is announced by its own change. -/
theorem faithful_append (targets more : List Label) :
    Faithful owner targets (append owner more) := by
  induction more generalizing targets with
  | nil => trivial
  | cons target rest ih =>
      refine ⟨⟨rfl, targets, List.Perm.refl targets, ?_⟩, ih (targets ++ [target])⟩
      exact List.perm_append_comm

/-- Each target that is dropped is announced by its own change. -/
theorem faithful_dropAll (targets : List Label) :
    Faithful owner targets (dropAll owner targets) := by
  induction targets with
  | nil => trivial
  | cons target rest ih =>
      exact ⟨⟨rfl, rest, List.Perm.refl _, List.Perm.refl _⟩, ih⟩

/-- All moves speak of edges of one owner. -/
theorem Faithful.owner_eq {targets : List Label} {moves : List Move}
    (faithful : Faithful owner targets moves) : ∀ move ∈ moves, move.change.owner = owner := by
  induction moves generalizing targets with
  | nil => simp
  | cons move rest ih =>
      obtain ⟨⟨same, _⟩, later⟩ := faithful
      intro other member
      rcases List.mem_cons.mp member with rfl | behind
      · exact same
      · exact ih later other behind

end Move

namespace Plan

/-- Whatever an attached table is proposed is faithful. -/
def Faithful (plan : Plan α) : Prop :=
  ∀ ⦃table owner answer moves⦄, table.owner = some owner →
    plan.propose table = .ok (answer, moves) → Move.Faithful owner table.targets moves

/-- The entry at the index is the one that the change takes away. -/
theorem faithful_set (index : Nat) (target : Label) : (set index target).Faithful := by
  intro table owner answer moves attached proposed
  rw [propose_set attached] at proposed
  cases found : table.get index with
  | error fault => simp [found, Except.map] at proposed
  | ok old =>
      obtain ⟨inRange, rfl⟩ := JumpTable.get_eq_ok.mp found
      simp only [found, Except.map, Except.ok.injEq, Prod.mk.injEq] at proposed
      obtain ⟨_, rfl⟩ := proposed
      refine ⟨⟨rfl, table.targets.eraseIdx index, ?_, ?_⟩, trivial⟩
      · exact (List.getElem_cons_eraseIdx_perm inRange).symm
      · exact List.set_perm_cons_eraseIdx inRange target

/-- An insertion takes nothing away. -/
theorem faithful_insert (index : Nat) (target : Label) : (insert index target).Faithful := by
  intro table owner answer moves attached proposed
  rw [propose_insert attached] at proposed
  unfold placeIn at proposed
  split at proposed
  · next inRange =>
    simp only [Except.map, Except.ok.injEq, Prod.mk.injEq] at proposed
    obtain ⟨_, rfl⟩ := proposed
    refine ⟨⟨rfl, table.targets, List.Perm.refl _, ?_⟩, trivial⟩
    exact List.perm_insertIdx target table.targets inRange
  · simp [Except.map] at proposed

/-- An entry that is there can be erased. -/
theorem faithful_eraseIdx {targets : List Label} {index : Nat} (owner : Label)
    (inRange : index < targets.length) :
    Move.Faithful owner targets
      [⟨⟨owner, some targets[index], none⟩, (·.eraseIdx index)⟩] := by
  refine ⟨⟨rfl, targets.eraseIdx index, ?_, List.Perm.refl _⟩, trivial⟩
  exact (List.getElem_cons_eraseIdx_perm inRange).symm

/-- A removal puts nothing there. -/
theorem faithful_removeAt (index : Nat) : (removeAt index).Faithful := by
  intro table owner answer moves attached proposed
  rw [propose_removeAt attached] at proposed
  cases found : table.get index with
  | error fault => simp [found, Except.map] at proposed
  | ok old =>
      obtain ⟨inRange, rfl⟩ := JumpTable.get_eq_ok.mp found
      simp only [found, Except.map, Except.ok.injEq, Prod.mk.injEq] at proposed
      obtain ⟨_, rfl⟩ := proposed
      exact faithful_eraseIdx owner inRange

theorem faithful_push (target : Label) : (push target).Faithful := by
  intro table owner answer moves attached proposed
  rw [propose_push attached] at proposed
  cases proposed
  exact Move.faithful_append _ _

/-- An extension keeps to its changes target by target. -/
theorem faithful_extend (targets : List Label) : (extend targets).Faithful := by
  intro table owner answer moves attached proposed
  rw [propose_extend attached] at proposed
  cases proposed
  exact Move.faithful_append _ _

/-- The first occurrence is an entry with this target. -/
theorem faithful_remove (target : Label) : (remove target).Faithful := by
  intro table owner answer moves attached proposed
  rw [propose_remove attached] at proposed
  cases found : table.indexOf? target with
  | none =>
      simp only [found, Except.ok.injEq, Prod.mk.injEq] at proposed
      obtain ⟨_, rfl⟩ := proposed
      trivial
  | some index =>
      obtain ⟨inRange, rfl⟩ := JumpTable.get_eq_ok.mp (get_of_indexOf? found)
      simp only [found, Except.ok.injEq, Prod.mk.injEq] at proposed
      obtain ⟨_, rfl⟩ := proposed
      exact faithful_eraseIdx owner inRange

/-- Clearing keeps to its changes target by target. -/
theorem faithful_clear : clear.Faithful := by
  intro table owner answer moves attached proposed
  rw [propose_clear attached] at proposed
  cases proposed
  exact Move.faithful_dropAll _

theorem Faithful.answering {plan : Plan α} (faithful : plan.Faithful)
    (answer : α → List Move → β) : (plan.answering answer).Faithful := by
  intro table owner given moves attached proposed
  cases before : plan.propose table with
  | error fault => simp [propose_answering_error answer before] at proposed
  | ok found =>
      obtain ⟨first, made⟩ := found
      rw [propose_answering_ok answer before] at proposed
      cases proposed
      exact faithful attached before

end Plan

/-- Every action keeps to the changes that it reports. -/
theorem Action.faithful_plan (action : Action) : action.plan.Faithful := by
  cases action with
  | push target => exact Plan.faithful_push target
  | insert index target => exact Plan.faithful_insert index target
  | set index target => exact (Plan.faithful_set index target).answering fun _ _ => ()
  | removeAt index => exact (Plan.faithful_removeAt index).answering fun _ _ => ()
  | remove target => exact (Plan.faithful_remove target).answering fun _ _ => ()
  | clear => exact Plan.faithful_clear

theorem Edit.faithful_plan (edit : Edit) : edit.plan.Faithful :=
  edit.action.faithful_plan.answering _

theorem Demand.faithful_plan (demand : Demand) : demand.plan.Faithful := by
  cases demand with
  | act action => exact action.faithful_plan
  | extend targets => exact Plan.faithful_extend targets

end Switchyard
