import Switchyard.Proofs.JumpTable.Plan

namespace Switchyard

variable {σ α : Type}

/-- An update that changes one edge at most, with the kind of answer that it gives. -/
inductive Amendment : Type → Type where
  | set (index : Nat) (target : Label) : Amendment Label
  | insert (index : Nat) (target : Label) : Amendment Unit
  | removeAt (index : Nat) : Amendment Label
  | push (target : Label) : Amendment Unit
  | remove (target : Label) : Amendment Bool

/-- What can be told before the observer is asked. -/
inductive Prospect (α : Type) where
  | settled (result : Except Fault α)
  /-- With consent to the change, these become the targets. -/
  | pending (change : Change) (targets : List Label) (answer : α)

/-- What the observer is asked. -/
def Prospect.changes : Prospect α → List Change
  | .settled _ => []
  | .pending change _ _ => [change]

/-- The observer keeps every change that it is asked about, whatever it says to it. -/
def Observer.attentive (observer : Observer σ) : Observer (σ × List Change) :=
  fun change (state, asked) =>
    match observer change state with
    | .ok _ state => .ok () (state, asked ++ [change])
    | .error fault state => .error fault (state, asked ++ [change])

/-- An attentive observer moves as the one that it stands for, and it remembers the question. -/
theorem Observer.after_attentive (observer : Observer σ) (change : Change) (heard : σ)
    (asked : List Change) :
    Step.after (observer.attentive change) (heard, asked) =
      (Step.after (observer change) heard, asked ++ [change]) := by
  simp only [Step.after, attentive]
  rcases observer change heard <;> rfl

namespace Move

/-- What is heard of a move is its change and nothing else. -/
theorem heard_after_make (observer : Observer σ) (move : Move) (s : Observed σ) :
    (Step.after (move.make observer) s).heard = Step.after (observer move.change) s.heard := by
  simp only [Step.after, make, JumpTable.report]
  rcases observer move.change s.heard <;> rfl

end Move

namespace Plan

variable {plan : Plan α} {s : Observed σ} {answer : α} {move : Move}

/-- A plan without moves leaves all as it is. -/
theorem carryOut_settled (observer : Observer σ) {result : Except Fault α}
    (settled : plan.propose s.table = result.map fun answer => (answer, [])) :
    Step.outcome (plan.carryOut observer) s = result ∧
      Step.after (plan.carryOut observer) s = s := by
  rw [outcome_carryOut, after_carryOut, settled]
  rcases result with fault | answer <;> exact ⟨rfl, rfl⟩

/-- The consent to the one change decides. -/
theorem outcome_carryOut_move (observer : Observer σ)
    (proposed : plan.propose s.table = .ok (answer, [move])) :
    Step.outcome (plan.carryOut observer) s =
      (Step.outcome (observer move.change) s.heard).map fun _ => answer := by
  simp only [outcome_carryOut, proposed, Move.walk_single, Move.outcome_make]

/-- Behind the one move nothing more happens. -/
theorem after_carryOut_move (observer : Observer σ)
    (proposed : plan.propose s.table = .ok (answer, [move])) :
    Step.after (plan.carryOut observer) s = Step.after (move.make observer) s := by
  simp only [after_carryOut, proposed, Move.walk_single]

end Plan

namespace Amendment

/-- The amendment as the update of a table that it stands for. -/
def perform (observer : Observer σ) : Amendment α → Step (Observed σ) α
  | .set index target => JumpTable.set observer index target
  | .insert index target => JumpTable.insert observer index target
  | .removeAt index => JumpTable.removeAt observer index
  | .push target => JumpTable.push observer target
  | .remove target => JumpTable.remove observer target

/-- An index has to name an entry, or for an insertion a place before or behind one. A target that
does not occur is not removed. -/
def prospect (owner : Label) (targets : List Label) : Amendment α → Prospect α
  | .set index target =>
      if inside : index < targets.length then
        .pending ⟨owner, some targets[index], some target⟩ (targets.set index target) targets[index]
      else
        .settled (.error (.outOfRange index targets.length))
  | .insert index target =>
      if index ≤ targets.length then
        .pending ⟨owner, none, some target⟩ (targets.insertIdx index target) ()
      else
        .settled (.error (.outOfRange index targets.length))
  | .removeAt index =>
      if inside : index < targets.length then
        .pending ⟨owner, some targets[index], none⟩ (targets.eraseIdx index) targets[index]
      else
        .settled (.error (.outOfRange index targets.length))
  | .push target => .pending ⟨owner, none, some target⟩ (targets ++ [target]) ()
  | .remove target =>
      if target ∈ targets then .pending ⟨owner, some target, none⟩ (targets.erase target) true
      else .settled (.ok false)

/-- The plan of that update. -/
def plan : Amendment α → Plan α
  | .set index target => Plan.set index target
  | .insert index target => Plan.insert index target
  | .removeAt index => Plan.removeAt index
  | .push target => Plan.push target
  | .remove target => Plan.remove target

/-- An amendment is its plan. -/
theorem perform_eq (amendment : Amendment α) (observer : Observer σ) :
    amendment.perform observer = amendment.plan.carryOut observer := by
  cases amendment with
  | set index target => exact Plan.set_eq observer index target
  | insert index target => exact Plan.insert_eq observer index target
  | removeAt index => exact Plan.removeAt_eq observer index
  | push target => exact Plan.push_eq observer target
  | remove target => exact Plan.remove_eq observer target

/-- The plan makes no move when all is settled, and one move when a change is pending. -/
def Foreseen (plan : Plan α) (table : JumpTable) : Prospect α → Prop
  | .settled result => plan.propose table = result.map fun answer => (answer, [])
  | .pending change targets answer =>
      ∃ update, plan.propose table = .ok (answer, [⟨change, update⟩]) ∧
        update table.targets = targets

variable {table : JumpTable} {owner : Label}

/-- An entry that is asked for by index is settled as missing or pending with what it holds. -/
theorem foreseen_entry {plan : Plan Label} {index : Nat} {new : Option Label}
    {update : List Label → List Label}
    (proposed : plan.propose table = (table.get index).map fun old =>
      (old, [⟨⟨owner, some old, new⟩, update⟩])) :
    Foreseen plan table
      (if inside : index < table.targets.length then
        .pending ⟨owner, some table.targets[index], new⟩ (update table.targets) table.targets[index]
      else
        .settled (.error (.outOfRange index table.targets.length))) := by
  rw [JumpTable.get] at proposed
  by_cases inside : index < table.targets.length
  · rw [List.getElem?_eq_getElem inside] at proposed
    rw [dif_pos inside]
    exact ⟨update, proposed, rfl⟩
  · rw [List.getElem?_eq_none (by omega)] at proposed
    rw [dif_neg inside]
    exact proposed

/-- The plan of an amendment proposes what its prospect tells. -/
theorem foreseen_prospect (amendment : Amendment α) (attached : table.owner = some owner) :
    Foreseen amendment.plan table (amendment.prospect owner table.targets) := by
  cases amendment with
  | set index target => exact foreseen_entry (Plan.propose_set attached index target)
  | removeAt index => exact foreseen_entry (Plan.propose_removeAt attached index)
  | push target => exact ⟨_, Plan.propose_push attached target, rfl⟩
  | insert index target =>
      have proposed := Plan.propose_insert attached index target
      rw [Plan.placeIn, JumpTable.length] at proposed
      by_cases inside : index ≤ table.targets.length
      · rw [if_pos inside] at proposed
        rw [prospect, if_pos inside]
        exact ⟨_, proposed, rfl⟩
      · rw [if_neg inside] at proposed
        rw [prospect, if_neg inside]
        exact proposed
  | remove target =>
      have proposed := Plan.propose_remove attached target
      rw [JumpTable.indexOf?] at proposed
      by_cases present : target ∈ table.targets
      · obtain ⟨index, found⟩ := Option.isSome_iff_exists.mp (List.isSome_idxOf?.mpr present)
        have erased := List.erase_eq_eraseIdx table.targets target
        rw [found] at proposed erased
        rw [prospect, if_pos present]
        exact ⟨_, proposed, erased.symm⟩
      · rw [List.idxOf?_eq_none_iff.mpr present] at proposed
        rw [prospect, if_neg present]
        exact proposed

/-- What an observer is asked is known beforehand. -/
theorem asked_after_perform (observer : Observer σ) (amendment : Amendment α)
    (attached : table.owner = some owner) (heard : σ) (asked : List Change) :
    (Step.after (amendment.perform observer.attentive) ⟨table, heard, asked⟩).heard.2 =
      asked ++ (amendment.prospect owner table.targets).changes := by
  have foreseen := amendment.foreseen_prospect attached
  rw [perform_eq]
  generalize amendment.prospect owner table.targets = prospect at foreseen ⊢
  rcases prospect with result | ⟨change, targets, answer⟩
  · have unmoved := Plan.carryOut_settled (s := ⟨table, heard, asked⟩) observer.attentive foreseen
    rw [unmoved.2]
    exact (List.append_nil asked).symm
  · obtain ⟨update, proposed, _⟩ := foreseen
    rw [Plan.after_carryOut_move observer.attentive proposed, Move.heard_after_make,
      Observer.after_attentive]
    rfl

section Ended

variable {amendment : Amendment α} {change : Change} {later : List Label} {answer : α}
  {s t : Observed σ} {observer : Observer σ}

/-- An amendment that succeeds gives the answer that was foreseen. If a change was pending, it has
been accepted. -/
theorem prospect_of_ok (attached : s.table.owner = some owner)
    (ended : amendment.perform observer s = .ok answer t) :
    amendment.prospect owner s.table.targets = .settled (.ok answer) ∧ t = s ∨
      ∃ change, amendment.prospect owner s.table.targets = .pending change t.table.targets answer ∧
        observer change s.heard = .ok () t.heard := by
  have foreseen := amendment.foreseen_prospect attached
  rw [perform_eq] at ended
  generalize amendment.prospect owner s.table.targets = prospect at foreseen ⊢
  obtain ⟨outcome, after⟩ := Step.eq_ok_iff.mp ended
  rcases prospect with result | ⟨change, later, foretold⟩
  · obtain ⟨settled, kept⟩ := Plan.carryOut_settled observer foreseen
    left
    rw [← settled, ← outcome, ← after]
    exact ⟨rfl, kept⟩
  · obtain ⟨update, proposed, rfl⟩ := foreseen
    have asked := Plan.outcome_carryOut_move (s := s) observer proposed
    rw [Plan.after_carryOut_move observer proposed] at after
    rw [outcome] at asked
    right
    rcases verdict : Step.outcome (observer change) s.heard with fault | _
    · rw [verdict] at asked
      cases asked
    · rw [verdict] at asked
      cases asked
      have targets := Move.targets_after_make observer ⟨change, update⟩ s
      rw [Move.outcome_make, verdict, after] at targets
      have heard := Move.heard_after_make observer ⟨change, update⟩ s
      rw [after] at heard
      rw [targets]
      exact ⟨change, rfl, Step.eq_ok_iff.mpr ⟨verdict, heard.symm⟩⟩

/-- Without a pending change all stays as it is. -/
theorem perform_of_settled (attached : s.table.owner = some owner)
    (settled : amendment.prospect owner s.table.targets = .settled (.ok answer)) :
    amendment.perform observer s = .ok answer s := by
  have foreseen := amendment.foreseen_prospect attached
  rw [settled] at foreseen
  rw [perform_eq]
  exact Step.eq_ok_iff.mpr (Plan.carryOut_settled observer foreseen)

/-- With consent to the pending change the amendment succeeds. -/
theorem perform_of_pending (attached : s.table.owner = some owner)
    (pending : amendment.prospect owner s.table.targets = .pending change later answer)
    (accepted : Step.outcome (observer change) s.heard = .ok ()) :
    ∃ t, amendment.perform observer s = .ok answer t ∧ t.table.owner = s.table.owner ∧
      t.table.targets = later := by
  have foreseen := amendment.foreseen_prospect attached
  rw [pending] at foreseen
  obtain ⟨update, proposed, rfl⟩ := foreseen
  have outcome := Plan.outcome_carryOut_move (s := s) observer proposed
  have targets := Move.targets_after_make observer ⟨change, update⟩ s
  rw [accepted] at outcome
  have kept := Move.owner_after_make observer ⟨change, update⟩ s
  rw [← Plan.after_carryOut_move observer proposed] at targets kept
  rw [Move.outcome_make, accepted] at targets
  rw [perform_eq]
  exact ⟨_, Step.eq_ok_iff.mpr ⟨outcome, rfl⟩, kept, targets⟩

end Ended

/-- An amendment asks its observer about the foreseen change and about no other. Without a change it
is settled and everything stays. With one, the observer's answer decides. -/
theorem asks_once (observer : Observer σ) (amendment : Amendment α)
    (attached : table.owner = some owner) (heard : σ) (asked : List Change) :
    let step := amendment.perform observer
    let later := Step.after step ⟨table, heard⟩
    (Step.after (amendment.perform observer.attentive) ⟨table, heard, asked⟩).heard.2 =
        asked ++ (amendment.prospect owner table.targets).changes ∧
      later.table.owner = some owner ∧
      match amendment.prospect owner table.targets with
      | .settled result => Step.outcome step ⟨table, heard⟩ = result ∧ later = ⟨table, heard⟩
      | .pending change targets answer =>
          later.heard = Step.after (observer change) heard ∧
            match Step.outcome (observer change) heard with
            | .ok _ =>
                Step.outcome step ⟨table, heard⟩ = .ok answer ∧ later.table.targets = targets
            | .error fault =>
                Step.outcome step ⟨table, heard⟩ = .error fault ∧
                  later.table.targets = table.targets := by
  intro step later
  refine ⟨asked_after_perform observer amendment attached heard asked, ?_⟩
  have foreseen := amendment.foreseen_prospect attached
  have planned : step = amendment.plan.carryOut observer := amendment.perform_eq observer
  -- From here on only the prospect matters, whichever amendment it comes from.
  generalize amendment.prospect owner table.targets = prospect at foreseen ⊢
  rcases prospect with result | ⟨change, targets, answer⟩
  · obtain ⟨ended, kept⟩ := Plan.carryOut_settled (s := ⟨table, heard⟩) observer foreseen
    rw [← planned] at ended kept
    exact ⟨by rw [← attached]; exact congrArg (·.table.owner) kept, ended, kept⟩
  · obtain ⟨update, proposed, rfl⟩ := foreseen
    have moved : later = Step.after (Move.make observer ⟨change, update⟩) ⟨table, heard⟩ := by
      show Step.after step ⟨table, heard⟩ = _
      rw [planned]
      exact Plan.after_carryOut_move observer proposed
    have answered := Plan.outcome_carryOut_move (s := ⟨table, heard⟩) observer proposed
    have targets := Move.targets_after_make observer ⟨change, update⟩ ⟨table, heard⟩
    rw [← planned] at answered
    rw [← moved, Move.outcome_make] at targets
    refine ⟨by rw [moved, Move.owner_after_make, attached], ?_, ?_⟩
    · rw [moved, Move.heard_after_make]
    · rcases verdict : Step.outcome (observer change) heard with fault | _
      · rw [verdict] at answered targets
        exact ⟨answered, targets⟩
      · rw [verdict] at answered targets
        exact ⟨answered, targets⟩

/-- The observer refuses at once, and the entry between two others is back at its place. -/
theorem refused_removal_asks_once :
    let table : JumpTable := { JumpTable.ofList [2, 1, 2, 1] with owner := some 0 }
    let step := (remove 1).perform Observer.limited
    table.owner = some 0 ∧
      (Step.after ((remove 1).perform Observer.limited.attentive) ⟨table, 0, []⟩).heard.2 =
        [⟨0, some 1, none⟩] ∧
      Step.outcome step ⟨table, 0⟩ = .error (.illegal (.notWired 0)) ∧
      (Step.after step ⟨table, 0⟩).table.targets = [2, 1, 2, 1] := by
  intro table step
  have attached : table.owner = some 0 := rfl
  obtain ⟨asked, _, _, refused, kept⟩ := asks_once Observer.limited (remove 1) attached 0 []
  exact ⟨attached, asked, refused, kept⟩

end Amendment

end Switchyard
