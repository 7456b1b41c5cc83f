import Switchyard.Proofs.Graph.Drift

namespace Switchyard

variable {σ α β : Type}

/-- A move that is made was accepted. -/
theorem Move.observer_of_make {observer : Observer σ} {move : Move} {s t : Observed σ}
    (made : move.make observer s = .ok () t) : observer move.change s.heard = .ok () t.heard := by
  simp only [make, JumpTable.report] at made
  rcases heard : observer move.change s.heard with later | later
  · rw [heard] at made
    cases made
    rfl
  · rw [heard] at made
    cases made

/-- The changes of a walk are accepted again without the table. The induction is on the moves that
are left. -/
theorem Move.forM_of_walk {observer : Observer σ} {moves : List Move} {s t : Observed σ}
    (walked : walk observer moves s = .ok () t) :
    (moves.map Move.change).forM observer s.heard = .ok () t.heard := by
  induction moves generalizing s with
  | nil =>
      cases walked
      rfl
  | cons move rest ih =>
      simp only [walk_cons, bind, EStateM.bind] at walked
      rcases made : move.make observer s with u | u
      · rw [made] at walked
        simp only [List.forM_eq_forM, List.map_cons, List.forM_cons, bind, EStateM.bind,
          observer_of_make made]
        exact ih walked
      · rw [made] at walked
        cases walked

/-- Another answer shows in the outcome alone, and not in whether there is one. -/
theorem Plan.outcome_answering (plan : Plan α) (answer : α → List Move → β) (observer : Observer σ)
    (s : Observed σ) :
    (Step.outcome ((plan.answering answer).carryOut observer) s).map (fun _ => ()) =
      (Step.outcome (plan.carryOut observer) s).map fun _ => () := by
  rw [outcome_carryOut, outcome_carryOut]
  rcases proposed : plan.propose s.table with fault | ⟨given, moves⟩
  · rw [propose_answering_error answer proposed]
    rfl
  · rw [propose_answering_ok answer proposed]
    show ((Step.outcome (Move.walk observer moves) s).map _).map _ = (Except.map _ _).map _
    rcases Step.outcome (Move.walk observer moves) s <;> rfl

/-- Another answer does not show in what is left behind. -/
theorem Plan.after_answering (plan : Plan α) (answer : α → List Move → β) (observer : Observer σ)
    (s : Observed σ) :
    Step.after ((plan.answering answer).carryOut observer) s =
      Step.after (plan.carryOut observer) s := by
  rw [after_carryOut, after_carryOut]
  rcases proposed : plan.propose s.table with fault | ⟨given, moves⟩
  · rw [propose_answering_error answer proposed]
  · rw [propose_answering_ok answer proposed]

/-- The changes of a plan that is carried out are accepted again without the table. -/
theorem Plan.forM_of_carryOut {plan : Plan α} {observer : Observer σ} {s t : Observed σ}
    {changes : List Change}
    (carried : (plan.answering fun _ moves => moves.map Move.change).carryOut observer s =
      .ok changes t) :
    changes.forM observer s.heard = .ok () t.heard := by
  rcases proposed : plan.propose s.table with fault | ⟨answer, moves⟩
  · rw [carryOut_of_error observer (propose_answering_error _ proposed)] at carried
    cases carried
  · rw [carryOut_of_ok observer (propose_answering_ok _ proposed)] at carried
    simp only [bind, EStateM.bind] at carried
    rcases walked : Move.walk observer moves s with u | u
    · rw [walked] at carried
      cases carried
      exact Move.forM_of_walk walked
    · rw [walked] at carried
      cases carried

/-- The counts hear of changes in order, until they refuse one. -/
def Predecessors.replay (changes : List Change) : Step Predecessors Unit :=
  changes.forM observer

namespace Edit

variable {edit : Edit} {g h : Graph}

/-- The update of the table that the edit names, without a log. Its own answer is dropped. -/
def update (edit : Edit) : Step Graph Unit :=
  Graph.onTable edit.owner <|
    match edit.action with
    | .push target => JumpTable.push Predecessors.observer target
    | .insert index target => JumpTable.insert Predecessors.observer index target
    | .set index target => discard (JumpTable.set Predecessors.observer index target)
    | .removeAt index => discard (JumpTable.removeAt Predecessors.observer index)
    | .remove target => discard (JumpTable.remove Predecessors.observer target)
    | .clear => JumpTable.clear Predecessors.observer

/-- An edit and a direct update perform the same action. -/
theorem update_eq (edit : Edit) :
    edit.update = Graph.onTable edit.owner (edit.action.perform Predecessors.observer) := by
  rcases edit with ⟨owner, action⟩
  cases action <;> rfl

/-- A log is an answer and nothing else. -/
theorem outcome_apply (edit : Edit) (g : Graph) :
    (Step.outcome edit.apply g).map (fun _ => ()) = Step.outcome edit.update g := by
  rw [apply_eq, update_eq, edit.action.perform_eq, Graph.outcome_onTable, Graph.outcome_onTable]
  rcases g.table edit.owner with fault | table
  · rfl
  · show (Step.outcome (edit.plan.carryOut Predecessors.observer) _).map (fun _ => ()) =
      Step.outcome (edit.action.plan.carryOut Predecessors.observer) _
    rw [plan, Plan.outcome_answering]
    rcases Step.outcome (edit.action.plan.carryOut Predecessors.observer) _ <;> rfl

/-- What an edit leaves behind is what its update leaves behind. -/
theorem after_apply (edit : Edit) (g : Graph) :
    Step.after edit.apply g = Step.after edit.update g := by
  rw [apply_eq, update_eq, edit.action.perform_eq, Graph.after_onTable, Graph.after_onTable]
  rcases g.table edit.owner with fault | table
  · rfl
  · simp only [plan, Plan.after_answering]

/-- The log of an edit leads the counts where the edit led them. -/
theorem replay_changes {changes : List Change} (applied : edit.apply g = .ok changes h) :
    Predecessors.replay changes g.predecessors = .ok () h.predecessors := by
  rw [apply_eq] at applied
  simp only [Graph.onTable] at applied
  rcases found : g.table edit.owner with fault | table
  · rw [found] at applied
    cases applied
  · simp only [found] at applied
    rcases carried : edit.plan.carryOut Predecessors.observer ⟨table, g.predecessors⟩ with t | t
    · rw [carried] at applied
      cases applied
      exact Plan.forM_of_carryOut carried
    · rw [carried] at applied
      cases applied

end Edit

namespace Script

variable {g h : Graph}

/-- Each edit takes up the counts where the one before it left them. -/
theorem replay_told {script : Script} {told : List Applied} (ran : script.run g = .ok told h) :
    Predecessors.replay (told.flatMap Applied.changes) g.predecessors = .ok () h.predecessors := by
  induction script generalizing g told with
  | nil =>
      cases ran
      rfl
  | cons edit rest ih =>
      obtain ⟨changes, k, behind, applied, later, rfl⟩ := run_cons_eq_ok.mp ran
      have first := Edit.replay_changes applied
      have second := ih later
      simp only [Predecessors.replay, List.forM_eq_forM] at first second ⊢
      rw [List.flatMap_cons, List.forM_append]
      simp only [bind, EStateM.bind, first]
      exact second

/-- An edit goes as its update goes, with or without success. The log of an edit that succeeds tells
all that the counts heard, and so do the logs of a script. -/
theorem logs_are_complete (g : Graph) :
    (∀ edit : Edit, (Step.outcome edit.apply g).map (fun _ => ()) = Step.outcome edit.update g ∧
      Step.after edit.apply g = Step.after edit.update g) ∧
    (∀ (edit : Edit) (changes : List Change) (h : Graph), edit.apply g = .ok changes h →
      Predecessors.replay changes g.predecessors = .ok () h.predecessors) ∧
    ∀ (script : Script) (told : List Applied) (h : Graph), script.run g = .ok told h →
      Predecessors.replay (told.flatMap Applied.changes) g.predecessors = .ok () h.predecessors :=
  ⟨fun edit => ⟨edit.outcome_apply g, edit.after_apply g⟩,
    fun _ _ _ applied => Edit.replay_changes applied, fun _ _ _ ran => replay_told ran⟩

/-- An edge to block 1 is counted that no table lists. It stays through the clearing, and the replay
ends with it too. -/
theorem drifted_logs_are_complete :
    let g := Step.after (Graph.onPredecessors (Predecessors.observer ⟨0, none, some 1⟩))
      (Graph.Request.after (.attachSwitch 0 (.ofList [1, 0, 1])) (Graph.ofSize 2))
    let script : Script := [⟨0, .set 1 1⟩, ⟨0, .clear⟩]
    let log : List Change := [⟨0, some 0, some 1⟩, ⟨0, some 1, none⟩, ⟨0, some 1, none⟩,
      ⟨0, some 1, none⟩]
    (Step.after script.run g).predecessors.multiplicity 1 0 = 1 ∧
      Predecessors.replay log g.predecessors = .ok () (Step.after script.run g).predecessors := by
  intro g script log
  refine ⟨by decide, ?_⟩
  apply (logs_are_complete g).2.2 script
    [⟨⟨0, .set 1 1⟩, [⟨0, some 0, some 1⟩]⟩, ⟨⟨0, .clear⟩, List.replicate 3 ⟨0, some 1, none⟩⟩]
  exact Step.eq_ok_iff.mpr ⟨by decide, rfl⟩

end Script

end Switchyard
