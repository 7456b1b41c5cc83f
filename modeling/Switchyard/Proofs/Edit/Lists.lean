import Switchyard.Proofs.Predecessors.Consent

namespace Switchyard

/-- Every target leaves. -/
theorem Move.result_dropAll (owner : Label) (targets : List Label) :
    result targets (dropAll owner targets) = [] := by
  induction targets with
  | nil => rfl
  | cons target rest ih => exact ih

namespace Action

/-- Only an insertion may name the place behind the last target. -/
def checkIndex (targets : List Label) : Action → Except Fault Unit
  | .insert index _ =>
      if index ≤ targets.length then .ok () else .error (.outOfRange index targets.length)
  | .set index _ | .removeAt index =>
      if index < targets.length then .ok () else .error (.outOfRange index targets.length)
  | .push _ | .remove _ | .clear => .ok ()

/-- The target that the action puts in. -/
def newTarget? : Action → Option Label
  | .push target | .insert _ target | .set _ target => some target
  | .removeAt _ | .remove _ | .clear => none

/-- A target that is put in has to be one of so many blocks. -/
def checkTarget (size : Nat) (action : Action) : Except Fault Unit :=
  match action.newTarget? with
  | none => .ok ()
  | some target => if target < size then .ok () else .error (.illegal (.notWired target))

/-- The index is looked at before the target. -/
def check (size : Nat) (targets : List Label) (action : Action) : Except Fault Unit := do
  action.checkIndex targets
  action.checkTarget size

/-- The list operation that the action is named for. -/
def onTargets (targets : List Label) : Action → List Label
  | .push target => targets ++ [target]
  | .insert index target => targets.insertIdx index target
  | .set index target => targets.set index target
  | .removeAt index => targets.eraseIdx index
  | .remove target => targets.erase target
  | .clear => []

/-- The changes of an action that succeeds. -/
def changes (owner : Label) (targets : List Label) : Action → List Change
  | .push target => [⟨owner, none, some target⟩]
  | .insert _ target => [⟨owner, none, some target⟩]
  | .set index target => [⟨owner, targets[index]?, some target⟩]
  | .removeAt index => [⟨owner, targets[index]?, none⟩]
  | .remove target => if target ∈ targets then [⟨owner, some target, none⟩] else []
  | .clear => targets.map fun target => ⟨owner, some target, none⟩

variable {action : Action} {owner target : Label} {targets : List Label} {table : JumpTable}

/-- A target that a change brings is the one that the action names. -/
theorem newTarget?_of_mem_changes {change : Change}
    (member : change ∈ action.changes owner targets) (new : change.new = some target) :
    action.newTarget? = some target := by
  cases action with
  | push | insert | set =>
      simp only [changes, List.mem_singleton] at member
      subst member
      exact new
  | removeAt index =>
      simp only [changes, List.mem_singleton] at member
      subst member
      cases new
  | remove gone =>
      simp only [changes] at member
      split at member
      · simp only [List.mem_singleton] at member
        subst member
        cases new
      · cases member
  | clear =>
      simp only [changes, List.mem_map] at member
      obtain ⟨gone, _, rfl⟩ := member
      cases new

/-- An action that brings a target makes a single change. -/
theorem changes_of_newTarget? (owner : Label) (targets : List Label)
    (new : action.newTarget? = some target) :
    ∃ old, action.changes owner targets = [⟨owner, old, some target⟩] := by
  cases action with
  | push | insert | set =>
      cases new
      exact ⟨_, rfl⟩
  | removeAt | remove | clear => cases new

/-- A bad index is found before the observer is asked. -/
theorem propose_misplaced {fault : Fault} (attached : table.owner = some owner)
    (misplaced : action.checkIndex table.targets = .error fault) :
    action.plan.propose table = .error fault := by
  cases action with
  | push | remove | clear => cases misplaced
  | insert index target =>
      simp only [checkIndex] at misplaced
      split at misplaced
      · cases misplaced
      · next outside =>
        cases misplaced
        rw [plan, Plan.propose_insert attached, Plan.placeIn, JumpTable.length, if_neg outside]
        rfl
  | set index target | removeAt index =>
      simp only [checkIndex] at misplaced
      split at misplaced
      · cases misplaced
      · next outside =>
        cases misplaced
        have missing : table.targets[index]? = none :=
          List.getElem?_eq_none (Nat.le_of_not_lt outside)
        have refused : table.get index = .error (.outOfRange index table.targets.length) := by
          simp only [JumpTable.get, missing, JumpTable.length]
        rw [plan, Plan.propose_answering_error]
        simp only [Plan.propose_set attached, Plan.propose_removeAt attached, refused]
        rfl

/-- An action with a valid index makes the moves that its changes tell, and these lead where the
action leads. -/
theorem propose_placed (attached : table.owner = some owner)
    (placed : action.checkIndex table.targets = .ok ()) :
    ∃ moves, action.plan.propose table = .ok ((), moves) ∧
      moves.map Move.change = action.changes owner table.targets ∧
      Move.result table.targets moves = action.onTargets table.targets := by
  cases action with
  | push target => exact ⟨_, Plan.propose_push attached target, rfl, rfl⟩
  | insert index target =>
      simp only [checkIndex] at placed
      split at placed
      · next inside =>
        refine ⟨[⟨⟨owner, none, some target⟩, (·.insertIdx index target)⟩], ?_, rfl, rfl⟩
        rw [plan, Plan.propose_insert attached, Plan.placeIn, JumpTable.length, if_pos inside]
        rfl
      · cases placed
  | set index target =>
      simp only [checkIndex] at placed
      split at placed
      · next inside =>
        have proposed : (Plan.set index target).propose table = .ok (table.targets[index],
            [⟨⟨owner, some table.targets[index], some target⟩, (·.set index target)⟩]) := by
          rw [Plan.propose_set attached, JumpTable.get_eq_ok.mpr ⟨inside, rfl⟩]
          rfl
        refine ⟨_, Plan.propose_answering_ok (fun _ _ => ()) proposed, ?_, rfl⟩
        simp only [changes, List.getElem?_eq_getElem inside, List.map]
      · cases placed
  | removeAt index =>
      simp only [checkIndex] at placed
      split at placed
      · next inside =>
        have proposed : (Plan.removeAt index).propose table = .ok (table.targets[index],
            [⟨⟨owner, some table.targets[index], none⟩, (·.eraseIdx index)⟩]) := by
          rw [Plan.propose_removeAt attached, JumpTable.get_eq_ok.mpr ⟨inside, rfl⟩]
          rfl
        refine ⟨_, Plan.propose_answering_ok (fun _ _ => ()) proposed, ?_, rfl⟩
        simp only [changes, List.getElem?_eq_getElem inside, List.map]
      · cases placed
  | remove target =>
      have proposed :=
        Plan.propose_answering_ok (fun _ _ => ()) (Plan.propose_remove attached target)
      have erased := List.erase_eq_eraseIdx table.targets target
      -- The plan goes by the first index, and the plain list by the target.
      cases found : table.indexOf? target with
      | none =>
          have absent : target ∉ table.targets := List.idxOf?_eq_none_iff.mp found
          rw [found] at proposed
          refine ⟨[], proposed, ?_, ?_⟩
          · simp only [changes, if_neg absent, List.map_nil]
          · exact (List.erase_of_not_mem absent).symm
      | some index =>
          obtain ⟨inside, here⟩ := JumpTable.get_eq_ok.mp (Plan.get_of_indexOf? found)
          have present : target ∈ table.targets := List.mem_of_getElem here
          have first : table.targets.idxOf? target = some index := found
          rw [found] at proposed
          rw [first] at erased
          refine ⟨_, proposed, ?_, ?_⟩
          · simp only [changes, if_pos present, List.map]
          · exact erased.symm
  | clear =>
      refine ⟨_, Plan.propose_clear attached, ?_, Move.result_dropAll owner table.targets⟩
      simp only [Move.dropAll, changes, List.map_map]
      rfl

end Action

namespace Edit

variable {edit : Edit} {s : Observed Predecessors} {size : Nat}

/-- A complaint is the failure of the edit, and the targets stay. -/
theorem carryOut_refused (even : s.Even edit.owner)
    (sized : ∀ t, s.heard.isWired t = true ↔ t < size) {fault : Fault}
    (refused : edit.action.check size s.table.targets = .error fault) :
    ∃ t, edit.plan.carryOut Predecessors.observer s = .error fault t ∧
      t.table.targets = s.table.targets := by
  unfold Action.check at refused
  cases placed : edit.action.checkIndex s.table.targets with
  | error other =>
      simp only [placed, bind, Except.bind, Except.error.injEq] at refused
      have proposed := Action.propose_misplaced even.attached (refused ▸ placed)
      exact ⟨s, Plan.carryOut_of_error _ (Plan.propose_answering_error _ proposed), rfl⟩
  | ok _ =>
      -- The index is in range, so the complaint is about the one target that is put in.
      simp only [placed, bind, Except.bind, Action.checkTarget] at refused
      obtain ⟨moves, proposed, told, _⟩ := Action.propose_placed even.attached placed
      have faithful := edit.action.faithful_plan even.attached proposed
      cases new : edit.action.newTarget? with
      | none => simp [new] at refused
      | some stray =>
          simp only [new] at refused
          split at refused
          · cases refused
          · next outside =>
            cases refused
            obtain ⟨old, single⟩ :=
              Action.changes_of_newTarget? edit.owner s.table.targets new
            rw [single, List.map_eq_singleton_iff] at told
            obtain ⟨move, rfl, towards⟩ := told
            have unwired : s.heard.isWired stray = false := by
              rw [Bool.eq_false_iff, ne_eq, sized]
              exact outside
            obtain ⟨t, walked, kept⟩ := Move.walk_stray even faithful
              (by rw [towards] : move.change.new = some stray) unwired
            refine ⟨t, ?_, kept⟩
            rw [plan, Plan.carryOut_of_ok _ (Plan.propose_answering_ok _ proposed)]
            simp only [bind, EStateM.bind, walked]

/-- An edit without complaint does what its action does to plain lists, and it tells so. -/
theorem carryOut_accepted (even : s.Even edit.owner)
    (sized : ∀ t, s.heard.isWired t = true ↔ t < size)
    (checked : edit.action.check size s.table.targets = .ok ()) :
    ∃ t, edit.plan.carryOut Predecessors.observer s =
        .ok (edit.action.changes edit.owner s.table.targets) t ∧
      t.table.targets = edit.action.onTargets s.table.targets := by
  unfold Action.check at checked
  cases placed : edit.action.checkIndex s.table.targets with
  | error fault => simp [placed, bind, Except.bind] at checked
  | ok _ =>
      simp only [placed, bind, Except.bind, Action.checkTarget] at checked
      obtain ⟨moves, proposed, told, led⟩ := Action.propose_placed even.attached placed
      have faithful := edit.action.faithful_plan even.attached proposed
      have known : ∀ move ∈ moves, ∀ t, move.change.new = some t → s.heard.isWired t = true := by
        intro move member t new
        have listed : move.change ∈ edit.action.changes edit.owner s.table.targets :=
          told ▸ List.mem_map_of_mem member
        rw [Action.newTarget?_of_mem_changes listed new] at checked
        by_contra unwired
        rw [sized] at unwired
        simp [unwired] at checked
      obtain ⟨t, walked, reached⟩ := Move.walk_even even faithful known
      refine ⟨t, ?_, reached.trans led⟩
      rw [plan, Plan.carryOut_of_ok _ (Plan.propose_answering_ok _ proposed)]
      simp only [bind, EStateM.bind, walked, told]
      rfl

end Edit

end Switchyard
