import Switchyard.Proofs.JumpTable.Amendment
import Switchyard.Proofs.JumpTable.Exchange

namespace Switchyard

variable {σ α : Type}

/-- The observer accepts so many of the changes in order, and it refuses the one behind them. -/
def Observer.StopsAfter (observer : Observer σ) (changes : List Change) (accepted : Nat)
    (fault : Fault) (heard left : σ) : Prop :=
  ∃ refused between, changes[accepted]? = some refused ∧
    (changes.take accepted).forM observer heard = .ok () between ∧
      observer refused between = .error fault left

namespace Move

variable {observer : Observer σ} {s : Observed σ}

/-- A move in one piece: the targets change, the observer is asked, and a refusal undoes the change.
-/
theorem make_apply (observer : Observer σ) (move : Move) (s : Observed σ) :
    move.make observer s =
      match observer move.change s.heard with
      | .ok _ heard => .ok () ⟨s.table.hold (move.update s.table.targets), heard⟩
      | .error fault heard =>
          .error fault
            ⟨(s.table.hold (move.update s.table.targets)).hold s.table.targets, heard⟩ := rfl

/-- A move is known by its change and by what it makes of the targets that are there. -/
theorem make_congr {change : Change} {first second : List Label → List Label}
    (same : first s.table.targets = second s.table.targets) :
    make observer ⟨change, first⟩ s = make observer ⟨change, second⟩ s := by
  simp only [make_apply, same]

/-- A walk ends at the change where the observer stops. The induction is on the moves, and each
accepted one is made before the next is asked about. -/
theorem walk_of_stopsAfter {moves : List Move} {accepted : Nat} {fault : Fault} {left : σ}
    (stops : observer.StopsAfter (moves.map Move.change) accepted fault s.heard left) :
    ∃ t, walk observer moves s = .error fault t ∧ t.heard = left ∧
      t.table.owner = s.table.owner ∧
        t.table.targets = result s.table.targets (moves.take accepted) := by
  induction moves generalizing accepted s with
  | nil =>
      obtain ⟨refused, between, here, _⟩ := stops
      cases here
  | cons move rest ih =>
      obtain ⟨refused, between, here, heard, refusal⟩ := stops
      simp only [walk_cons, bind, EStateM.bind, make_apply]
      cases accepted with
      | zero =>
          cases here
          cases heard
          rw [refusal]
          exact ⟨_, rfl, rfl, rfl, rfl⟩
      | succ accepted =>
          rw [List.map_cons, List.take_succ_cons, List.forM_eq_forM, List.forM_cons] at heard
          simp only [bind, EStateM.bind] at heard
          rcases consent : observer move.change s.heard with ⟨_, next⟩ | ⟨other, next⟩
          · rw [consent] at heard
            exact ih (s := ⟨s.table.hold (move.update s.table.targets), next⟩)
              ⟨refused, between, here, heard, refusal⟩
          · rw [consent] at heard
            cases heard

/-- Appended targets stand behind the others. -/
theorem result_append (owner : Label) (targets more : List Label) :
    result targets (append owner more) = targets ++ more := by
  induction more generalizing targets with
  | nil => exact (List.append_nil targets).symm
  | cons target rest ih =>
      have later := ih (targets ++ [target])
      rw [List.append_assoc] at later
      exact later

/-- Dropped targets leave from the front. -/
theorem result_dropAll_eq_drop (owner : Label) (targets gone : List Label) :
    result targets (dropAll owner gone) = targets.drop gone.length := by
  induction gone generalizing targets with
  | nil => rfl
  | cons target rest ih =>
      have later := ih targets.tail
      rw [List.drop_tail] at later
      exact later

end Move

namespace Plan

variable {plan other : Plan α} {observer : Observer σ} {s t : Observed σ} {answer : α}

/-- A plan that succeeds made all its moves. -/
theorem carryOut_eq_ok :
    plan.carryOut observer s = .ok answer t ↔
      ∃ moves, plan.propose s.table = .ok (answer, moves) ∧
        Move.walk observer moves s = .ok () t := by
  rcases proposed : plan.propose s.table with fault | ⟨given, moves⟩
  · simp [carryOut_of_error observer proposed]
  · rw [carryOut_of_ok observer proposed]
    simp only [bind, EStateM.bind, pure, EStateM.pure]
    constructor
    · intro carried
      rcases walked : Move.walk observer moves s with ⟨_, later⟩ | ⟨fault, later⟩
      · rw [walked] at carried
        cases carried
        exact ⟨moves, rfl, walked⟩
      · rw [walked] at carried
        cases carried
    · rintro ⟨_, same, walked⟩
      cases same
      rw [walked]

/-- Only the proposal for the table at hand counts. -/
theorem carryOut_congr (same : plan.propose s.table = other.propose s.table) :
    plan.carryOut observer s = other.carryOut observer s := by
  rcases proposed : other.propose s.table with fault | ⟨given, moves⟩
  · rw [carryOut_of_error observer (same.trans proposed), carryOut_of_error observer proposed]
  · rw [carryOut_of_ok observer (same.trans proposed), carryOut_of_ok observer proposed]

/-- A removal by index that is proposed has an owner, an entry and one move. -/
theorem propose_removeAt_eq_ok {table : JumpTable} {index : Nat} {old : Label}
    {moves : List Move} (proposed : (removeAt index).propose table = .ok (old, moves)) :
    ∃ owner, table.get index = .ok old ∧
      moves = [⟨⟨owner, some old, none⟩, (·.eraseIdx index)⟩] := by
  rcases attached : table.owner with _ | owner
  · simp only [removeAt, ownerOf, attached] at proposed
    cases proposed
  · rw [propose_removeAt attached] at proposed
    rcases found : table.get index with fault | entry
    · rw [found] at proposed
      cases proposed
    · rw [found] at proposed
      cases proposed
      exact ⟨owner, rfl, rfl⟩

end Plan

namespace JumpTable

/-- No removal that succeeds leaves the table as long as it was. -/
theorem length_lt_of_removeAt {observer : Observer σ} {index : Nat} {s t : Observed σ}
    {old : Label} (removed : removeAt observer index s = .ok old t) :
    t.table.length < s.table.length := by
  rw [Plan.removeAt_eq, Plan.carryOut_eq_ok] at removed
  obtain ⟨moves, proposed, walked⟩ := removed
  obtain ⟨owner, found, rfl⟩ := Plan.propose_removeAt_eq_ok proposed
  obtain ⟨inside, _⟩ := get_eq_ok.mp found
  rw [Move.walk_single] at walked
  have moved := Move.targets_after_make observer ⟨⟨owner, some old, none⟩, (·.eraseIdx index)⟩ s
  rw [Step.after_of_ok walked, Step.outcome_of_ok walked] at moved
  rw [length, length, moved, List.length_eraseIdx_of_lt inside]
  omega

/-- The first target is removed again and again, until none is left or one is refused. -/
def removeEach (observer : Observer σ) (s : Observed σ) : EStateM.Result Fault (Observed σ) Unit :=
  if s.table.isEmpty then .ok () s
  else
    match _removed : removeAt observer 0 s with
    | .ok _ t => removeEach observer t
    | .error fault t => .error fault t
termination_by s.table.length
decreasing_by exact length_lt_of_removeAt _removed

/-- A table without targets is done. -/
theorem removeEach_of_empty (observer : Observer σ) {s : Observed σ}
    (empty : s.table.targets = []) : removeEach observer s = .ok () s := by
  rw [removeEach, isEmpty, empty]
  rfl

section Removal

variable {observer : Observer σ} {s t : Observed σ} (full : s.table.targets ≠ [])
include full

/-- After a removal the others are removed in the same way. -/
theorem removeEach_of_ok {old : Label} (removed : removeAt observer 0 s = .ok old t) :
    removeEach observer s = removeEach observer t := by
  rw [removeEach, isEmpty, if_neg (mt List.isEmpty_iff.mp full)]
  split
  · next step =>
    rw [removed] at step
    cases step
    rfl
  · next step =>
    rw [removed] at step
    cases step

/-- The first refusal ends the removals. -/
theorem removeEach_of_error {fault : Fault} (refused : removeAt observer 0 s = .error fault t) :
    removeEach observer s = .error fault t := by
  rw [removeEach, isEmpty, if_neg (mt List.isEmpty_iff.mp full)]
  split
  · next step =>
    rw [refused] at step
    cases step
  · next step =>
    rw [refused] at step
    cases step
    rfl

end Removal

/-- No observer can tell the two updates of the table apart. They give the same answer, they leave
the same table and the same observer, and they ask the same in the same order. -/
structure Concur (table : JumpTable)
    (first second : ∀ {σ : Type}, Observer σ → Step (Observed σ) α) : Prop where
  results : ∀ {σ : Type} (observer : Observer σ) (heard : σ),
    first observer ⟨table, heard⟩ = second observer ⟨table, heard⟩
  questions : ∀ {σ : Type} (observer : Observer σ) (heard : σ) (asked : List Change),
    (Step.after (first observer.attentive) ⟨table, heard, asked⟩).heard.2 =
      (Step.after (second observer.attentive) ⟨table, heard, asked⟩).heard.2

/-- An observer that keeps what it is asked is one of those that cannot tell them apart. -/
theorem Concur.of_results {table : JumpTable}
    {first second : ∀ {σ : Type}, Observer σ → Step (Observed σ) α}
    (same : ∀ {σ : Type} (observer : Observer σ) (heard : σ),
      first observer ⟨table, heard⟩ = second observer ⟨table, heard⟩) :
    Concur table first second where
  results := same
  questions observer heard asked := by
    simp only [Step.after, same observer.attentive (heard, asked)]

section Attached

variable {table : JumpTable} {owner : Label} (attached : table.owner = some owner)
include attached

/-- The first target is removed by the move that a clear makes for it. -/
theorem removeAt_zero (observer : Observer σ) {target : Label} {rest : List Label}
    (holds : table.targets = target :: rest) (heard : σ) :
    removeAt observer 0 ⟨table, heard⟩ =
      (do Move.make observer ⟨⟨owner, some target, none⟩, List.tail⟩; return target)
        ⟨table, heard⟩ := by
  have first : table.get 0 = .ok target := by rw [get, holds]; rfl
  have proposed : (Plan.removeAt 0).propose table =
      .ok (target, [⟨⟨owner, some target, none⟩, (·.eraseIdx 0)⟩]) := by
    rw [Plan.propose_removeAt attached, first]
    rfl
  rw [Plan.removeAt_eq, Plan.carryOut_of_ok observer proposed, Move.walk_single]
  apply Step.bind_apply_congr
  · apply Move.make_congr
    exact List.eraseIdx_zero
  · intro _ _ _
    rfl

/-- The loop makes the moves of a clear. The induction is on the targets, and each removal leaves the
next one at the front. -/
theorem removeEach_eq_walk (observer : Observer σ) (heard : σ) :
    removeEach observer ⟨table, heard⟩ =
      Move.walk observer (Move.dropAll owner table.targets) ⟨table, heard⟩ := by
  generalize holds : table.targets = targets
  induction targets generalizing table heard with
  | nil => exact removeEach_of_empty observer holds
  | cons target rest ih =>
      have full : table.targets ≠ [] := holds ▸ List.cons_ne_nil target rest
      have removed := removeAt_zero attached observer holds heard
      simp only [bind, EStateM.bind, pure, EStateM.pure, Move.make_apply, holds,
        List.tail_cons] at removed
      simp only [Move.dropAll, List.map_cons, Move.walk_cons, bind, EStateM.bind, Move.make_apply,
        holds, List.tail_cons]
      rcases consent : observer ⟨owner, some target, none⟩ heard with ⟨_, next⟩ | ⟨fault, next⟩
      · rw [consent] at removed
        rw [removeEach_of_ok full removed]
        exact ih (owner_hold table rest ▸ attached) next rfl
      · rw [consent] at removed
        exact removeEach_of_error full removed

/-- All at once or one by one, a table is cleared by the same moves. -/
theorem concur_clear : Concur table clear removeEach := by
  apply Concur.of_results
  intro σ observer heard
  rw [removeEach_eq_walk attached, Plan.clear_eq,
    Plan.carryOut_of_ok observer (Plan.propose_clear attached), bind_pure_unit]

/-- To append a target is to insert it behind the last one. -/
theorem concur_push (target : Label) :
    Concur table (fun observer => push observer target)
      (fun observer => insert observer table.length target) := by
  apply Concur.of_results
  intro σ observer heard
  have proposed := Plan.propose_insert attached table.length target
  rw [Plan.placeIn, if_pos (Nat.le_refl _)] at proposed
  rw [Plan.push_eq, Plan.insert_eq, Plan.carryOut_of_ok observer (Plan.propose_push attached target),
    Plan.carryOut_of_ok observer proposed, bind_pure_unit, bind_pure_unit, Move.append, List.map,
    List.map, Move.walk_single, Move.walk_single]
  apply Move.make_congr
  exact List.insertIdx_length_self.symm

omit attached in
/-- Targets that come in two parts are appended part by part. -/
theorem concur_extend (targets more : List Label) :
    Concur table (fun observer => extend observer (targets ++ more))
      (fun observer => do extend observer targets; extend observer more) := by
  apply Concur.of_results
  intro σ observer heard
  rw [extend, List.forM_eq_forM, List.forM_append]
  rfl

section Occurrence

variable {target : Label} {index : Nat} (found : table.indexOf? target = some index)
include found

/-- A target that was found is removed by the one move that drops its entry. -/
theorem propose_remove_found :
    (Plan.remove target).propose table =
      .ok (true, [⟨⟨owner, some target, none⟩, (·.eraseIdx index)⟩]) := by
  rw [Plan.propose_remove attached, found]

/-- The same move drops the entry by its index. -/
theorem propose_removeAt_found :
    (Plan.removeAt index).propose table =
      .ok (target, [⟨⟨owner, some target, none⟩, (·.eraseIdx index)⟩]) := by
  rw [Plan.propose_removeAt attached, Plan.get_of_indexOf? found]
  rfl

/-- A target is removed where it occurs first. -/
theorem concur_remove :
    Concur table (fun observer => remove observer target)
      (fun observer => do let _ ← removeAt observer index; return true) := by
  apply Concur.of_results
  intro σ observer heard
  rw [Plan.remove_eq, Plan.removeAt_eq, Plan.carryOut_map]
  apply Plan.carryOut_congr
  rw [propose_remove_found attached found,
    Plan.propose_answering_ok _ (propose_removeAt_found attached found)]

/-- What is removed at the first occurrence of a target is the target. -/
theorem concur_removeAt :
    Concur table (fun observer => removeAt observer index)
      (fun observer => do let _ ← remove observer target; return target) := by
  apply Concur.of_results
  intro σ observer heard
  rw [Plan.remove_eq, Plan.removeAt_eq, Plan.carryOut_map]
  apply Plan.carryOut_congr
  rw [propose_removeAt_found attached found,
    Plan.propose_answering_ok _ (propose_remove_found attached found)]

end Occurrence

/-- The update is refused with this fault. It leaves these targets to the owner, and the observer in
this state. -/
def RefusedWith (update : Step (Observed σ) α) (s : Observed σ) (fault : Fault)
    (targets : List Label) (left : σ) : Prop :=
  ∃ t, update s = .error fault t ∧ t.heard = left ∧ t.table.owner = s.table.owner ∧
    t.table.targets = targets

/-- A clear that is refused has dropped what was accepted, and the rest is there in order. -/
theorem clear_of_stopsAfter {observer : Observer σ} {accepted : Nat} {fault : Fault}
    {heard left : σ}
    (stops : observer.StopsAfter (table.targets.map fun target => ⟨owner, some target, none⟩)
      accepted fault heard left) :
    RefusedWith (clear observer) ⟨table, heard⟩ fault (table.targets.drop accepted) left := by
  have told : (Move.dropAll owner table.targets).map Move.change =
      table.targets.map fun target => ⟨owner, some target, none⟩ := by
    simp only [Move.dropAll, List.map_map, Function.comp_def]
  obtain ⟨refused, _, here, _⟩ := id stops
  have inside : accepted < table.targets.length := by
    have inside := (List.getElem?_eq_some_iff.mp here).1
    rwa [List.length_map] at inside
  rw [← told] at stops
  obtain ⟨t, walked, last, owned, targets⟩ := Move.walk_of_stopsAfter (s := ⟨table, heard⟩) stops
  refine ⟨t, ?_, last, owned, ?_⟩
  · rw [Plan.clear_eq, Plan.carryOut_of_ok observer (Plan.propose_clear attached), bind_pure_unit]
    exact walked
  · rw [targets, Move.dropAll, ← List.map_take]
    have dropped := Move.result_dropAll_eq_drop owner table.targets (table.targets.take accepted)
    rw [List.length_take, Nat.min_eq_left (Nat.le_of_lt inside)] at dropped
    exact dropped

/-- An extension that is refused has appended what was accepted before. -/
theorem extend_of_stopsAfter {observer : Observer σ} {targets : List Label} {accepted : Nat}
    {fault : Fault} {heard left : σ}
    (stops : observer.StopsAfter (targets.map fun target => ⟨owner, none, some target⟩)
      accepted fault heard left) :
    RefusedWith (extend observer targets) ⟨table, heard⟩ fault
      (table.targets ++ targets.take accepted) left := by
  have told : (Move.append owner targets).map Move.change =
      targets.map fun target => ⟨owner, none, some target⟩ := by
    simp only [Move.append, List.map_map, Function.comp_def]
  rw [← told] at stops
  obtain ⟨t, walked, last, owned, later⟩ := Move.walk_of_stopsAfter (s := ⟨table, heard⟩) stops
  refine ⟨t, ?_, last, owned, ?_⟩
  · rw [Plan.extend_eq, Plan.carryOut_of_ok observer (Plan.propose_extend attached targets),
      bind_pure_unit]
    exact walked
  · rw [later, Move.append, ← List.map_take]
    exact Move.result_append owner table.targets (targets.take accepted)

end Attached

/-- Clearing, appending and removing come to single insertions and removals. -/
structure Stepwise (owner : Label) (table : JumpTable) : Prop where
  onClear : Concur table clear removeEach
  /-- The accepted targets are gone, and the others remain in order. -/
  onRefusedClear : ∀ {σ : Type} (observer : Observer σ) (accepted : Nat) (fault : Fault)
      (heard left : σ),
    observer.StopsAfter (table.targets.map fun target => ⟨owner, some target, none⟩)
        accepted fault heard left →
      RefusedWith (clear observer) ⟨table, heard⟩ fault (table.targets.drop accepted) left
  onPush : ∀ target, Concur table (fun observer => push observer target)
    (fun observer => insert observer table.length target)
  onExtend : ∀ targets more, Concur table (fun observer => extend observer (targets ++ more))
    (fun observer => do extend observer targets; extend observer more)
  /-- The accepted targets follow the old ones. -/
  onRefusedExtend : ∀ {σ : Type} (observer : Observer σ) (targets : List Label) (accepted : Nat)
      (fault : Fault) (heard left : σ),
    observer.StopsAfter (targets.map fun target => ⟨owner, none, some target⟩)
        accepted fault heard left →
      RefusedWith (extend observer targets) ⟨table, heard⟩ fault
        (table.targets ++ targets.take accepted) left
  /-- A target that occurs is removed at its index, and nothing else is. -/
  onRemove : ∀ target ∈ table.targets, ∃ index, table.indexOf? target = some index ∧
    Concur table (fun observer => remove observer target)
      (fun observer => do let _ ← removeAt observer index; return true) ∧
    Concur table (fun observer => removeAt observer index)
      (fun observer => do let _ ← remove observer target; return target)

/-- An attached table cannot be seen to do in one update what it could do step by step. -/
theorem stepwise_of_attached {table : JumpTable} {owner : Label}
    (attached : table.owner = some owner) : table.Stepwise owner where
  onClear := concur_clear attached
  onRefusedClear _ _ _ _ _ stops := clear_of_stopsAfter attached stops
  onPush := concur_push attached
  onExtend := concur_extend
  onRefusedExtend _ _ _ _ _ _ stops := extend_of_stopsAfter attached stops
  onRemove target present := by
    obtain ⟨index, found⟩ := Option.isSome_iff_exists.mp (List.isSome_idxOf?.mpr present)
    exact ⟨index, found, concur_remove attached found, concur_removeAt attached found⟩

/-- The observer accepts two changes. Two of three targets are cleared then, one by one or not, and
two of three are appended. -/
theorem stepwise_of_limited :
    let table : JumpTable := { ofList [1, 2, 1] with owner := some 0 }
    let fault := Fault.illegal (.notWired 0)
    table.owner = some 0 ∧
      RefusedWith (clear Observer.limited) ⟨table, 2⟩ fault [1] 0 ∧
      RefusedWith (removeEach Observer.limited) ⟨table, 2⟩ fault [1] 0 ∧
      RefusedWith (extend Observer.limited [5, 6, 7]) ⟨table, 2⟩ fault [1, 2, 1, 5, 6] 0 ∧
      ∃ index, table.indexOf? 2 = some index ∧
        remove Observer.limited 2 ⟨table, 1⟩ =
          (do let _ ← removeAt Observer.limited index; return true : Step _ _) ⟨table, 1⟩ := by
  intro table fault
  have attached : table.owner = some 0 := rfl
  have stepwise := stepwise_of_attached attached
  have cleared := stepwise.onRefusedClear Observer.limited 2 fault 2 0 ⟨_, 0, rfl, rfl, rfl⟩
  have extended :=
    stepwise.onRefusedExtend Observer.limited [5, 6, 7] 2 fault 2 0 ⟨_, 0, rfl, rfl, rfl⟩
  have present : (2 : Label) ∈ table.targets := by decide
  obtain ⟨index, found, removed, _⟩ := stepwise.onRemove 2 present
  have same := stepwise.onClear.results Observer.limited 2
  refine ⟨attached, cleared, ?_, extended, index, found, removed.results Observer.limited 1⟩
  obtain ⟨t, refused, left⟩ := cleared
  exact ⟨t, same.symm.trans refused, left⟩

end JumpTable

end Switchyard
