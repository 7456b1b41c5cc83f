import Switchyard.Proofs.JumpTable.Amendment
import Switchyard.Proofs.Predecessors.Session
import Switchyard.Proofs.Script.Replay

namespace Switchyard

variable {σ α : Type}

namespace Move

variable {observer : Observer σ} {holds : σ → Prop}

/-- What every single report keeps is kept by a walk, whether it comes to its end or not. The
induction is on the moves that are left. -/
theorem walk_invariant
    (kept : ∀ change heard, holds heard → holds (Step.after (observer change) heard))
    (moves : List Move) {s : Observed σ} (start : holds s.heard) :
    holds (Step.after (walk observer moves) s).heard := by
  induction moves generalizing s with
  | nil => exact start
  | cons move rest ih =>
      have next : holds (Step.after (move.make observer) s).heard := by
        rw [heard_after_make]
        exact kept move.change s.heard start
      rw [walk_cons, Step.after_bind]
      rcases Step.outcome (move.make observer) s with fault | _
      · exact next
      · exact ih next

/-- A log leaves no trace in what it is a log of. -/
theorem unlogged_after_walk (observer : Observer σ) (moves : List Move)
    (s : Observed (σ × Array Change)) :
    (Step.after (walk observer.logging moves) s).unlogged =
      Step.after (walk observer moves) s.unlogged := by
  simp only [Step.after, walk_logging]
  rcases walk observer moves s.unlogged with t | t <;> rfl

end Move

namespace Plan

/-- What every question to the observer keeps, an update keeps. -/
theorem carryOut_invariant {observer : Observer σ} {holds : σ → Prop}
    (kept : ∀ change heard, holds heard → holds (Step.after (observer change) heard))
    (plan : Plan α) {s : Observed σ} (start : holds s.heard) :
    holds (Step.after (plan.carryOut observer) s).heard := by
  rw [after_carryOut]
  rcases plan.propose s.table with fault | ⟨answer, moves⟩
  · exact start
  · exact Move.walk_invariant kept moves start

/-- A log is no influence on what is left behind. -/
theorem unlogged_after_carryOut (plan : Plan α) (observer : Observer σ)
    (s : Observed (σ × Array Change)) :
    (Step.after (plan.carryOut observer.logging) s).unlogged =
      Step.after (plan.carryOut observer) s.unlogged := by
  have sameTable : s.unlogged.table = s.table := rfl
  rw [after_carryOut, after_carryOut, sameTable]
  rcases plan.propose s.table with fault | ⟨answer, moves⟩
  · rfl
  · exact Move.unlogged_after_walk observer moves s

end Plan

namespace Predecessors

variable {p r : Predecessors} {changes : List Change} {target source : Label}

/-- The last change is heard behind the others. -/
theorem replay_concat {change : Change} :
    replay (changes ++ [change]) p = .ok () r ↔
      ∃ m, replay changes p = .ok () m ∧ observer change m = .ok () r := by
  have single : forM [change] observer = observer change := by
    rw [List.forM_cons, List.forM_nil, bind_pure_unit]
  simp only [replay, List.forM_eq_forM, List.forM_append, single, bind, EStateM.bind]
  rcases forM changes observer p with ⟨_, m⟩ | ⟨fault, m⟩ <;> simp

/-- A change that is accepted is logged behind the others, and one that is refused is not. -/
theorem replay_logging (change : Change) (s : Predecessors × Array Change)
    (told : replay s.2.toList p = .ok () s.1) :
    replay (Step.after (observer.logging change) s).2.toList p =
      .ok () (Step.after (observer.logging change) s).1 := by
  obtain ⟨m, log⟩ := s
  rcases heard : observer change m with ⟨_, r⟩ | ⟨fault, r⟩
  · simp only [Step.after, Observer.logging, heard, Array.toList_push]
    exact replay_concat.mpr ⟨m, told, heard⟩
  · simp only [Step.after, Observer.logging, heard]
    rwa [observer_of_refused heard]

/-- Every count comes from the count before and the changes in between. -/
theorem multiplicity_replay (told : replay changes p = .ok () r) (target source : Label) :
    r.multiplicity target source + Change.losses changes target source =
      p.multiplicity target source + Change.gains changes target source := by
  induction changes using List.reverseRecOn generalizing r with
  | nil =>
      cases told
      rfl
  | append_singleton changes change ih =>
      obtain ⟨m, front, last⟩ := replay_concat.mp told
      have before := ih front
      have counted := multiplicity_observer last target source
      simp only [Change.gains, Change.losses, Change.countP_side_concat] at before ⊢
      omega

/-- A count that is not what it was has a change that names its edge. -/
theorem named_of_replay (told : replay changes p = .ok () r)
    (moved : r.multiplicity target source ≠ p.multiplicity target source) :
    ∃ change ∈ changes, change.owner = source ∧
      (change.old = some target ∨ change.new = some target) := by
  have balanced := multiplicity_replay told target source
  have either : 0 < Change.losses changes target source ∨
      0 < Change.gains changes target source := by omega
  rcases either with lost | gained
  · obtain ⟨change, listed, names⟩ := List.countP_pos_iff.mp lost
    obtain ⟨owned, old⟩ := of_decide_eq_true names
    exact ⟨change, listed, owned, .inl old⟩
  · obtain ⟨change, listed, names⟩ := List.countP_pos_iff.mp gained
    obtain ⟨owned, new⟩ := of_decide_eq_true names
    exact ⟨change, listed, owned, .inr new⟩

end Predecessors

namespace Graph

/-- The two graphs are the same, apart from the targets of one block and the counts of its edges. -/
structure Framed (b : Label) (g h : Graph) : Prop where
  labels : h.labels = g.labels
  /-- Every other block is as it was, whether it is a switch or not. -/
  others : ∀ p, p ≠ b → h.table p = g.table p
  /-- The block itself remains a switch with its owner, or it remains without a table. -/
  owned : (h.table b).map JumpTable.owner = (g.table b).map JumpTable.owner
  wired : ∀ p, h.predecessors.isWired p = g.predecessors.isWired p
  foreign : ∀ target p, p ≠ b →
    h.predecessors.multiplicity target p = g.predecessors.multiplicity target p

/-- All that an update with these accepted changes does to a graph. The changes lead from the old
counts to the new ones, and a count moves only when one of them names it. -/
structure Touched (b : Label) (told : List Change) (g h : Graph) : Prop extends g.Framed b h where
  replayed : Predecessors.replay told g.predecessors = .ok () h.predecessors
  named : ∀ target,
    h.predecessors.multiplicity target b ≠ g.predecessors.multiplicity target b →
      ∃ change ∈ told, change.owner = b ∧ (change.old = some target ∨ change.new = some target)

variable {g h : Graph} {b : Label} {plan : Plan α}

/-- The changes that the counts accept while this is asked of a switch, up to the end or up to the
first refusal. A block without a table reports none. -/
def accepted (g : Graph) (b : Label) (asked : Demand) : List Change :=
  match g.table b with
  | .error _ => []
  | .ok table =>
      (Step.after (asked.perform Predecessors.observer.logging)
        ⟨table, g.predecessors, #[]⟩).heard.2.toList

theorem Framed.refl (b : Label) (g : Graph) : g.Framed b g where
  labels := rfl
  others _ _ := rfl
  owned := rfl
  wired _ := rfl
  foreign _ _ _ := rfl

theorem Framed.trans {k : Graph} (first : g.Framed b h) (second : h.Framed b k) :
    g.Framed b k where
  labels := second.labels.trans first.labels
  others p other := (second.others p other).trans (first.others p other)
  owned := second.owned.trans first.owned
  wired p := (second.wired p).trans (first.wired p)
  foreign target p other := (second.foreign target p other).trans (first.foreign target p other)

/-- The frame holds however the update ends. -/
theorem Sound.framed_onTable (sound : g.Sound) (faithful : plan.Faithful) (b : Label) :
    g.Framed b (Step.after (onTable b (plan.carryOut Predecessors.observer)) g) := by
  have later := (sound.keeps_onTable faithful b).sound
  rw [after_onTable] at later ⊢
  cases found : g.table b with
  | error fault => exact Framed.refl b g
  | ok table =>
      rw [found] at later
      have conserved := Plan.carryOut_conserves (s := ⟨table, g.predecessors⟩) faithful
        (sound.owned b table found)
      exact {
        labels := by rw [later.labels_eq, sound.labels_eq, size_put]
        others := fun p other => table_put_ne g _ other
        owned := by
          rw [table_put_self (lt_size_of_table found), found]
          exact congrArg Except.ok conserved.sameOwner
        wired := conserved.sameWired
        foreign := conserved.othersKept }

/-- The accepted changes are those of the logged run, which leads to the same counts. -/
theorem replay_accepted (g : Graph) (b : Label) (asked : Demand) :
    Predecessors.replay (g.accepted b asked) g.predecessors = .ok ()
      (Step.after (onTable b (asked.perform Predecessors.observer)) g).predecessors := by
  rw [after_onTable]
  unfold accepted
  cases g.table b with
  | error fault => rfl
  | ok table =>
      have told := asked.plan.carryOut_invariant Predecessors.replay_logging
        (s := ⟨table, g.predecessors, #[]⟩) rfl
      have same := asked.plan.unlogged_after_carryOut Predecessors.observer
        ⟨table, g.predecessors, #[]⟩
      simp only [← asked.perform_eq] at told same
      rw [told, predecessors_put]
      exact congrArg (EStateM.Result.ok ()) (congrArg Observed.heard same)

/-- An update touches the table, the counts of its owner and what the accepted changes name. -/
theorem Sound.touched_onTable (sound : g.Sound) (b : Label) (asked : Demand) :
    g.Touched b (g.accepted b asked)
      (Step.after (onTable b (asked.perform Predecessors.observer)) g) where
  toFramed := by
    rw [asked.perform_eq]
    exact sound.framed_onTable asked.faithful_plan b
  replayed := g.replay_accepted b asked
  named _ moved := Predecessors.named_of_replay (g.replay_accepted b asked) moved

/-- An edit that succeeds answers with what the counts accepted. -/
theorem accepted_of_apply {edit : Edit} {changes : List Change}
    (applied : edit.apply g = .ok changes h) :
    g.accepted edit.owner (.act edit.action) = changes := by
  simp only [Edit.apply, onTable] at applied
  unfold accepted
  cases found : g.table edit.owner with
  | error fault => simp [found] at applied
  | ok table =>
      simp only [found, JumpTable.logged, bind, EStateM.bind] at applied
      simp only [Demand.perform, Step.after]
      rcases performed :
        edit.action.perform Predecessors.observer.logging ⟨table, g.predecessors, #[]⟩ with t | t
      · rw [performed] at applied
        cases applied
        rfl
      · rw [performed] at applied
        cases applied

/-- Whatever is asked of a switch, and however it ends, only this switch and the counts of its edges
are concerned. An edit of the switch touches no more, and its log is what the counts accepted. -/
theorem Disturbed.touches_one_share (reached : g.Disturbed) (b : Label) :
    (∀ asked : Demand,
      g.Touched b (g.accepted b asked)
        (Step.after (onTable b (asked.perform Predecessors.observer)) g)) ∧
    ∀ edit : Edit, edit.owner = b →
      g.Touched b (g.accepted b (.act edit.action)) (Step.after edit.apply g) ∧
        ∀ changes h, edit.apply g = .ok changes h →
          g.accepted b (.act edit.action) = changes := by
  have touched := reached.sound.touched_onTable b
  refine ⟨touched, ?_⟩
  rintro edit rfl
  refine ⟨?_, fun changes h => accepted_of_apply⟩
  rw [edit.after_apply]
  exact touched (.act edit.action)

/-- Block 0 leads to block 1 twice and to itself, and the loop is not counted any more. Its clearing
is refused at the loop, and it has told of one edge to block 1 by then. Block 1 keeps its own edge
to the same target. -/
theorem refused_clear_touches_one_share :
    let g := Step.after (onPredecessors (Predecessors.observer ⟨0, some 0, none⟩))
      (Request.after (.attachSwitch 1 (.ofList [1]))
        (Request.after (.attachSwitch 0 (.ofList [1, 0, 1])) (ofSize 2)))
    let clear := onTable 0 (Demand.perform (.act .clear) Predecessors.observer)
    Step.outcome clear g = .error (.illegal (.edgeMissing 0 0)) ∧
      g.accepted 0 (.act .clear) = [⟨0, some 1, none⟩] ∧
      (Step.after clear g).predecessors.into 1 = [(0, 1), (1, 1)] ∧
      g.Touched 0 [⟨0, some 1, none⟩] (Step.after clear g) := by
  intro g clear
  have reached : g.Disturbed :=
    .report _ (.request _ (.request _ (.initial (.ofSize 2))))
  have told : g.accepted 0 (.act .clear) = [⟨0, some 1, none⟩] := by decide
  have touched := (reached.touches_one_share 0).1 (.act .clear)
  rw [told] at touched
  exact ⟨by decide, told, by decide, touched⟩

end Graph

end Switchyard
