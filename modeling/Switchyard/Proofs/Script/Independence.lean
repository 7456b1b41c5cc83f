import Switchyard.Proofs.Graph.Drift
import Switchyard.Proofs.Graph.Share

namespace Switchyard

namespace Edit

variable {first second : Edit} {g h k : Graph}

/-- An edit does not notice an edit of another owner. -/
theorem outcome_of_other (sound : g.Sound) (apart : first.owner ≠ second.owner) :
    Step.outcome first.apply (Step.after second.apply g) = Step.outcome first.apply g := by
  rw [apply_eq, apply_eq]
  exact sound.outcome_of_other first.faithful_plan second.faithful_plan apart

/-- Edits of different owners can trade places, even when they fail. -/
theorem after_commute (sound : g.Sound) (apart : first.owner ≠ second.owner) :
    Step.after first.apply (Step.after second.apply g) =
      Step.after second.apply (Step.after first.apply g) := by
  rw [apply_eq, apply_eq]
  exact sound.after_commute first.faithful_plan second.faithful_plan apart

/-- Two edits that succeed one after the other also succeed the other way round. -/
theorem apply_swap (sound : g.Sound) (apart : first.owner ≠ second.owner)
    {changes others : List Change} (one : first.apply g = .ok changes h)
    (two : second.apply h = .ok others k) :
    ∃ m, second.apply g = .ok others m ∧ first.apply m = .ok changes k := by
  obtain ⟨firstOutcome, firstAfter⟩ := Step.eq_ok_iff.mp one
  obtain ⟨secondOutcome, secondAfter⟩ := Step.eq_ok_iff.mp two
  refine ⟨Step.after second.apply g, ?_, ?_⟩
  · rw [Step.eq_ok_iff, ← outcome_of_other sound (Ne.symm apart), firstAfter]
    exact ⟨secondOutcome, rfl⟩
  · rw [Step.eq_ok_iff, outcome_of_other sound apart, after_commute sound apart, firstAfter]
    exact ⟨firstOutcome, secondAfter⟩

/-- An edit that succeeds leaves a sound graph. -/
theorem sound_of_apply (sound : g.Sound) {changes : List Change}
    (applied : first.apply g = .ok changes h) : h.Sound := by
  rw [← Step.after_of_ok applied]
  exact (sound.keeps_edit first).sound

end Edit

namespace Script

variable {script other before behind : Script} {edit : Edit} {g h : Graph}

/-- Both scripts have the same edits, and the edits of each owner are in the same order. -/
def Reorders (script other : Script) : Prop :=
  ∀ b : Label, other.filter (·.owner = b) = script.filter (·.owner = b)

/-- A reordered script has the same edits. -/
theorem Reorders.perm (reorders : script.Reorders other) : other.Perm script := by
  rw [List.perm_iff_count]
  intro edit
  have mine (list : Script) : (list.filter (·.owner = edit.owner)).count edit = list.count edit :=
    List.count_filter (by simp)
  rw [← mine other, ← mine script, reorders]

/-- An edit may wait for edits of other owners. The induction is on the edits that it waits for. -/
theorem run_delay (sound : g.Sound) (apart : ∀ x ∈ before, x.owner ≠ edit.owner)
    {told : List Applied} (ran : run (edit :: (before ++ behind)) g = .ok told h) :
    ∃ retold, run (before ++ edit :: behind) g = .ok retold h ∧
      ∀ b : Label, retold.filter (·.edit.owner = b) = told.filter (·.edit.owner = b) := by
  induction before generalizing g told with
  | nil => exact ⟨told, ran, fun _ => rfl⟩
  | cons x rest ih =>
      obtain ⟨changes, k, toldRest, one, restRan, rfl⟩ := run_cons_eq_ok.mp ran
      obtain ⟨others, l, toldBehind, two, ranBehind, rfl⟩ := run_cons_eq_ok.mp restRan
      have different := apart x List.mem_cons_self
      obtain ⟨m, swappedOne, swappedTwo⟩ := Edit.apply_swap sound (Ne.symm different) one two
      have waiting : run (edit :: (rest ++ behind)) m = .ok (⟨edit, changes⟩ :: toldBehind) h :=
        run_cons_eq_ok.mpr ⟨changes, l, toldBehind, swappedTwo, ranBehind, rfl⟩
      obtain ⟨retold, retoldRan, same⟩ := ih (Edit.sound_of_apply sound swappedOne)
        (fun y later => apart y (List.mem_cons_of_mem _ later)) waiting
      refine ⟨⟨x, others⟩ :: retold, ?_, fun b => ?_⟩
      · exact run_cons_eq_ok.mpr ⟨others, m, retold, swappedOne, retoldRan, rfl⟩
      · rw [List.filter_cons, same b]
        simp only [List.filter_cons, decide_eq_true_eq]
        by_cases mine : x.owner = b
        · have notYours : edit.owner ≠ b := fun yours => different (mine.trans yours.symm)
          simp only [mine, notYours, ↓reduceIte]
        · simp only [mine, ↓reduceIte]

/-- Some place of the other script holds the first edit, and nothing of its owner is before it. -/
theorem Reorders.split {rest : Script} (reorders : Reorders (edit :: rest) other) :
    ∃ before behind, other = before ++ edit :: behind ∧ (∀ x ∈ before, x.owner ≠ edit.owner) ∧
      Reorders rest (before ++ behind) := by
  have mine := reorders edit.owner
  rw [List.filter_cons_of_pos (by simp), List.filter_eq_cons_iff] at mine
  obtain ⟨before, behind, rfl, apart, _, later⟩ := mine
  have noneBefore : ∀ x ∈ before, x.owner ≠ edit.owner := by
    intro x member
    simpa using apart x member
  refine ⟨before, behind, rfl, noneBefore, fun b => ?_⟩
  -- The first edit is gone from its owner's list on both sides, and it was in no other list.
  by_cases own : edit.owner = b
  · subst own
    rw [List.filter_append, List.filter_eq_nil_iff.mpr (by simpa using apart), later]
    rfl
  · have same := reorders b
    rw [List.filter_append, List.filter_cons_of_neg (by simpa using own),
      List.filter_cons_of_neg (by simpa using own)] at same
    rw [List.filter_append, same]

/-- The induction is on the script that is known to run. Its first edit waits in the other one. -/
theorem run_reordered (sound : g.Sound) (reorders : script.Reorders other) {told : List Applied}
    (ran : run script g = .ok told h) :
    ∃ retold, run other g = .ok retold h ∧
      ∀ b : Label, retold.filter (·.edit.owner = b) = told.filter (·.edit.owner = b) := by
  induction script generalizing g other told with
  | nil =>
      have empty : other = [] := List.perm_nil.mp reorders.perm
      subst empty
      exact ⟨told, ran, fun _ => rfl⟩
  | cons edit rest ih =>
      obtain ⟨before, behind, rfl, apart, later⟩ := reorders.split
      obtain ⟨changes, k, toldRest, one, restRan, rfl⟩ := run_cons_eq_ok.mp ran
      obtain ⟨retoldRest, ranRest, sameRest⟩ := ih (Edit.sound_of_apply sound one) later restRan
      have hoisted : run (edit :: (before ++ behind)) g = .ok (⟨edit, changes⟩ :: retoldRest) h :=
        run_cons_eq_ok.mpr ⟨changes, k, retoldRest, one, ranRest, rfl⟩
      obtain ⟨retold, ranOther, same⟩ := run_delay sound apart hoisted
      refine ⟨retold, ranOther, fun b => ?_⟩
      rw [same, List.filter_cons, List.filter_cons, sameRest]

/-- Edits of different owners are independent. A script that runs may be reordered between owners,
and each edit makes the same changes then. Two edits of different owners may trade places, whether
they succeed or fail. -/
theorem owners_independent (reached : g.Disturbed) :
    (∀ script other told h, script.Reorders other → run script g = .ok told h →
      ∃ retold, run other g = .ok retold h ∧
        ∀ b : Label, retold.filter (·.edit.owner = b) = told.filter (·.edit.owner = b)) ∧
    ∀ first second : Edit, first.owner ≠ second.owner →
      Step.outcome first.apply (Step.after second.apply g) = Step.outcome first.apply g ∧
      Step.outcome second.apply (Step.after first.apply g) = Step.outcome second.apply g ∧
      Step.after first.apply (Step.after second.apply g) =
        Step.after second.apply (Step.after first.apply g) := by
  have sound := reached.sound
  constructor
  · intro script other told h reorders ran
    exact run_reordered sound reorders ran
  · intro first second apart
    exact ⟨Edit.outcome_of_other sound apart, Edit.outcome_of_other sound (Ne.symm apart),
      Edit.after_commute sound apart⟩

/-- Block 1 may wait for the edit of block 2. A clearing of block 2 would be refused half-way, for an
edge that is not counted, and an edit of block 1 makes no difference to that. -/
theorem drifted_owners_independent :
    let g := Step.after (Graph.onPredecessors (Predecessors.observer ⟨2, some 0, none⟩))
      (Graph.Request.after (.attachSwitch 2 (.ofList [1, 0]))
        (Graph.Request.after (.attachSwitch 1 (.ofList [1, 0])) (Graph.ofSize 3)))
    let script : Script := [⟨1, .push 2⟩, ⟨2, .remove 1⟩, ⟨1, .clear⟩]
    let other : Script := [⟨2, .remove 1⟩, ⟨1, .push 2⟩, ⟨1, .clear⟩]
    let told : List Applied := [⟨⟨1, .push 2⟩, [⟨1, none, some 2⟩]⟩,
      ⟨⟨2, .remove 1⟩, [⟨2, some 1, none⟩]⟩,
      ⟨⟨1, .clear⟩, [⟨1, some 1, none⟩, ⟨1, some 0, none⟩, ⟨1, some 2, none⟩]⟩]
    let refused : Edit := ⟨2, .clear⟩
    let accepted : Edit := ⟨1, .push 2⟩
    (∃ retold, run other g = .ok retold (Step.after (run script) g) ∧
        ∀ b : Label, retold.filter (·.edit.owner = b) = told.filter (·.edit.owner = b)) ∧
      Step.outcome refused.apply g = .error (.illegal (.edgeMissing 2 0)) ∧
      Step.outcome refused.apply (Step.after accepted.apply g) = Step.outcome refused.apply g := by
  have reached := Graph.Disturbed.report ⟨2, some 0, none⟩
    (.request (.attachSwitch 2 (.ofList [1, 0]))
      (.request (.attachSwitch 1 (.ofList [1, 0])) (.initial (.ofSize 3))))
  have independent := owners_independent reached
  refine ⟨?_, by decide, (independent.2 _ _ (by decide)).1⟩
  apply independent.1 [⟨1, .push 2⟩, ⟨2, .remove 1⟩, ⟨1, .clear⟩]
  · rintro (_ | _ | _ | b)
    · decide
    · decide
    · decide
    · rfl
  · exact Step.eq_ok_iff.mpr ⟨by decide, rfl⟩

end Script

end Switchyard
