import Switchyard.Edit.Basic
import Switchyard.Proofs.Step
import Mathlib.Data.List.InsertIdx

namespace Switchyard

variable {σ α β : Type}

/-- One change and what it does to the targets. -/
structure Move where
  change : Change
  update : List Label → List Label

namespace Move

/-- A move that is refused gives back the targets that were there. -/
def make (observer : Observer σ) (move : Move) : Step (Observed σ) Unit := fun s =>
  JumpTable.report observer move.change move.update (fun _ => s.table.targets) s

/-- A refusal ends the walk. -/
def walk (observer : Observer σ) (moves : List Move) : Step (Observed σ) Unit :=
  moves.forM (make observer)

@[simp] theorem walk_nil (observer : Observer σ) : walk observer [] = pure () := rfl

@[simp] theorem walk_cons (observer : Observer σ) (move : Move) (rest : List Move) :
    walk observer (move :: rest) = (do make observer move; walk observer rest) := rfl

/-- A walk of one move is this move. -/
theorem walk_single (observer : Observer σ) (move : Move) :
    walk observer [move] = move.make observer := by
  rw [walk_cons, walk_nil, bind_pure_unit]

/-- An update that undoes itself is a move. -/
theorem report_eq_make {observer : Observer σ} {change : Change}
    {update undo : List Label → List Label} {s : Observed σ}
    (undone : undo (update s.table.targets) = s.table.targets) :
    JumpTable.report observer change update undo s = make observer ⟨change, update⟩ s := by
  simp only [make, JumpTable.report, JumpTable.targets_hold, undone]

/-- The targets after all moves. -/
def result (targets : List Label) (moves : List Move) : List Label :=
  moves.foldl (fun targets move => move.update targets) targets

/-- A move succeeds when the observer consents to its change. -/
theorem outcome_make (observer : Observer σ) (move : Move) (s : Observed σ) :
    Step.outcome (move.make observer) s = Step.outcome (observer move.change) s.heard := by
  simp only [Step.outcome, make, JumpTable.report]
  cases observer move.change s.heard <;> rfl

/-- A refused move leaves the targets as they were. -/
theorem targets_after_make (observer : Observer σ) (move : Move) (s : Observed σ) :
    (Step.after (move.make observer) s).table.targets =
      match Step.outcome (move.make observer) s with
      | .ok _ => move.update s.table.targets
      | .error _ => s.table.targets := by
  simp only [Step.after, Step.outcome, make, JumpTable.report]
  cases observer move.change s.heard <;> rfl

/-- No move gives a table to another owner. -/
@[simp] theorem owner_after_make (observer : Observer σ) (move : Move) (s : Observed σ) :
    (Step.after (move.make observer) s).table.owner = s.table.owner := by
  simp only [Step.after, make, JumpTable.report]
  cases observer move.change s.heard <;> rfl

/-- Targets are appended one by one. -/
def append (owner : Label) (targets : List Label) : List Move :=
  targets.map fun target => ⟨⟨owner, none, some target⟩, (· ++ [target])⟩

/-- Targets leave from the front one by one. -/
def dropAll (owner : Label) (targets : List Label) : List Move :=
  targets.map fun target => ⟨⟨owner, some target, none⟩, List.tail⟩

end Move

/-- What an update makes of a table before the observer hears of it. The update fails, or it fixes
its answer and its moves. Only the moves involve the observer, so what holds of every sequence of
moves holds of every update. -/
structure Plan (α : Type) where
  propose : JumpTable → Except Fault (α × List Move)

namespace Plan

/-- Only a table with an owner can be updated. -/
def ownerOf (table : JumpTable) : Except Fault Label :=
  match table.owner with
  | none => .error (.illegal .unattached)
  | some owner => .ok owner

/-- An index up to the length is a place for a new entry. -/
def placeIn (index : Nat) (table : JumpTable) : Except Fault Unit :=
  if index ≤ table.length then .ok () else .error (.outOfRange index table.length)

/-- One entry is replaced, and the displaced target is the answer. -/
def set (index : Nat) (target : Label) : Plan Label where
  propose table := do
    let owner ← ownerOf table
    let old ← table.get index
    return (old, [⟨⟨owner, some old, some target⟩, (·.set index target)⟩])

/-- One target comes in at the index. -/
def insert (index : Nat) (target : Label) : Plan Unit where
  propose table := do
    let owner ← ownerOf table
    placeIn index table
    return ((), [⟨⟨owner, none, some target⟩, (·.insertIdx index target)⟩])

/-- One entry goes, and its target is the answer. -/
def removeAt (index : Nat) : Plan Label where
  propose table := do
    let owner ← ownerOf table
    let old ← table.get index
    return (old, [⟨⟨owner, some old, none⟩, (·.eraseIdx index)⟩])

/-- One target comes in at the end. -/
def push (target : Label) : Plan Unit where
  propose table := do
    let owner ← ownerOf table
    return ((), Move.append owner [target])

/-- The targets come in at the end one by one. Without any, no owner is asked for. -/
def extend (targets : List Label) : Plan Unit where
  propose table :=
    if targets.isEmpty then return ((), [])
    else do
      let owner ← ownerOf table
      return ((), Move.append owner targets)

/-- The first occurrence goes, if there is one, and the answer tells which it was. -/
def remove (target : Label) : Plan Bool where
  propose table := do
    let owner ← ownerOf table
    match table.indexOf? target with
    | none => return (false, [])
    | some index => return (true, [⟨⟨owner, some target, none⟩, (·.eraseIdx index)⟩])

/-- All targets go, from the front on. -/
def clear : Plan Unit where
  propose table := do
    let owner ← ownerOf table
    return ((), Move.dropAll owner table.targets)

/-- The plan with another answer. -/
def answering (plan : Plan α) (answer : α → List Move → β) : Plan β where
  propose table := (plan.propose table).map fun (a, moves) => (answer a moves, moves)

/-- Looks at the table and leaves everything as it is. -/
def look (check : JumpTable → Except Fault α) : Step (Observed σ) α := do
  Step.ofExcept (check (← JumpTable.current))

/-- The moves are made in order, and the answer is given behind the last one. -/
def carryOut (plan : Plan α) (observer : Observer σ) : Step (Observed σ) α := do
  let (answer, moves) ← look plan.propose
  Move.walk observer moves
  return answer

/-- Two checks of one table in a row are one check. -/
theorem look_bind (check : JumpTable → Except Fault α) (rest : α → JumpTable → Except Fault β) :
    (look fun table => check table >>= fun a => rest a table : Step (Observed σ) β) =
      (do let a ← look check; look (rest a)) := by
  funext s
  simp only [look, JumpTable.current, bind, EStateM.bind]
  cases check s.table <;> rfl

/-- What follows a check may rely on its answer. -/
theorem look_bind_congr {check : JumpTable → Except Fault α} {next other : α → Step (Observed σ) β}
    (same : ∀ a s, check s.table = .ok a → next a s = other a s) :
    (do let a ← look check; next a) = (do let a ← look check; other a) := by
  funext s
  simp only [look, JumpTable.current, bind, EStateM.bind]
  cases found : check s.table with
  | error fault => rfl
  | ok a => exact same a s found

/-- A check that comes first in the proposal comes first when the plan is carried out. -/
theorem carryOut_bind (check : JumpTable → Except Fault α)
    (rest : α → JumpTable → Except Fault (β × List Move)) (observer : Observer σ) :
    carryOut ⟨fun table => check table >>= fun a => rest a table⟩ observer =
      (do let a ← look check; carryOut ⟨rest a⟩ observer) := by
  simp only [carryOut, look_bind, bind_assoc]

/-- A plan of one move waits for this move and then answers. -/
theorem carryOut_single (answer : α) (move : Move) (observer : Observer σ) :
    carryOut ⟨fun _ => pure (answer, [move])⟩ observer =
      (do move.make observer; return answer) := by
  have walked : carryOut ⟨fun _ => pure (answer, [move])⟩ observer =
      (do Move.walk observer [move]; return answer) := rfl
  rw [walked, Move.walk_single]

/-- A plan that fails leaves table and observer alone. -/
theorem carryOut_of_error {plan : Plan α} {s : Observed σ} {fault : Fault} (observer : Observer σ)
    (refused : plan.propose s.table = .error fault) :
    plan.carryOut observer s = .error fault s := by
  simp only [carryOut, look, JumpTable.current, bind, EStateM.bind, refused]
  rfl

/-- All that a plan does after its proposal is in its moves. -/
theorem carryOut_of_ok {plan : Plan α} {s : Observed σ} {answer : α} {moves : List Move}
    (observer : Observer σ) (proposed : plan.propose s.table = .ok (answer, moves)) :
    plan.carryOut observer s = (do Move.walk observer moves; return answer : Step _ α) s := by
  simp only [carryOut, look, JumpTable.current, bind, EStateM.bind, proposed]
  rfl

/-- Another answer does not save a plan that fails. -/
theorem propose_answering_error {plan : Plan α} {table : JumpTable} {fault : Fault}
    (answer : α → List Move → β) (refused : plan.propose table = .error fault) :
    (plan.answering answer).propose table = .error fault := by
  simp only [answering, refused]
  rfl

/-- Another answer leaves the moves as they are. -/
theorem propose_answering_ok {plan : Plan α} {table : JumpTable} {given : α} {moves : List Move}
    (answer : α → List Move → β) (proposed : plan.propose table = .ok (given, moves)) :
    (plan.answering answer).propose table = .ok (answer given moves, moves) := by
  simp only [answering, proposed]
  rfl

/-- The moves decide whether the answer is given. -/
theorem outcome_carryOut (plan : Plan α) (observer : Observer σ) (s : Observed σ) :
    Step.outcome (plan.carryOut observer) s =
      match plan.propose s.table with
      | .error fault => .error fault
      | .ok (answer, moves) =>
          (Step.outcome (Move.walk observer moves) s).map fun _ => answer := by
  cases proposed : plan.propose s.table with
  | error fault => simp only [Step.outcome, carryOut_of_error observer proposed]
  | ok found =>
      obtain ⟨answer, moves⟩ := found
      simp only [Step.outcome, carryOut_of_ok observer proposed, bind, EStateM.bind]
      cases Move.walk observer moves s <;> rfl

/-- What is left behind is what the moves left behind. -/
theorem after_carryOut (plan : Plan α) (observer : Observer σ) (s : Observed σ) :
    Step.after (plan.carryOut observer) s =
      match plan.propose s.table with
      | .error _ => s
      | .ok (_, moves) => Step.after (Move.walk observer moves) s := by
  cases proposed : plan.propose s.table with
  | error fault => simp only [Step.after, carryOut_of_error observer proposed]
  | ok found =>
      obtain ⟨answer, moves⟩ := found
      simp only [Step.after, carryOut_of_ok observer proposed, bind, EStateM.bind]
      cases Move.walk observer moves s <;> rfl

/-- An answer that is worked on afterwards could be worked on beforehand. -/
theorem carryOut_map (plan : Plan α) (f : α → β) (observer : Observer σ) :
    (do let answer ← plan.carryOut observer; return f answer) =
      (plan.answering fun answer _ => f answer).carryOut observer := by
  funext s
  cases proposed : plan.propose s.table with
  | error fault =>
      rw [carryOut_of_error observer (propose_answering_error _ proposed)]
      simp only [bind, EStateM.bind, carryOut_of_error observer proposed]
  | ok found =>
      obtain ⟨answer, moves⟩ := found
      rw [carryOut_of_ok observer (propose_answering_ok _ proposed)]
      simp only [bind, EStateM.bind, carryOut_of_ok observer proposed]
      cases Move.walk observer moves s <;> rfl

/-- Two answers in a row are one answer. -/
theorem answering_answering {γ : Type} (plan : Plan α) (first : α → List Move → β)
    (second : β → List Move → γ) :
    (plan.answering first).answering second =
      plan.answering fun answer moves => second (first answer moves) moves := by
  simp only [answering, Plan.mk.injEq]
  funext table
  cases plan.propose table <;> rfl

section Attached

variable {table : JumpTable} {owner : Label} (attached : table.owner = some owner)
include attached

theorem ownerOf_attached : ownerOf table = .ok owner := by
  simp only [ownerOf, attached]

/-- The old target has to be there, and it is the answer. -/
theorem propose_set (index : Nat) (target : Label) :
    (set index target).propose table = (table.get index).map fun old =>
      (old, [⟨⟨owner, some old, some target⟩, (·.set index target)⟩]) := by
  simp only [set, ownerOf_attached attached]
  rfl

/-- The place has to be there. -/
theorem propose_insert (index : Nat) (target : Label) :
    (insert index target).propose table = (placeIn index table).map fun _ =>
      ((), [⟨⟨owner, none, some target⟩, (·.insertIdx index target)⟩]) := by
  simp only [insert, ownerOf_attached attached]
  rfl

/-- The entry has to be there, and its target is the answer. -/
theorem propose_removeAt (index : Nat) :
    (removeAt index).propose table = (table.get index).map fun old =>
      (old, [⟨⟨owner, some old, none⟩, (·.eraseIdx index)⟩]) := by
  simp only [removeAt, ownerOf_attached attached]
  rfl

/-- A table with an owner takes any target at its end. -/
theorem propose_push (target : Label) :
    (push target).propose table = .ok ((), Move.append owner [target]) := by
  simp only [push, ownerOf_attached attached]
  rfl

/-- A table with an owner takes any targets at its end. -/
theorem propose_extend (targets : List Label) :
    (extend targets).propose table = .ok ((), Move.append owner targets) := by
  cases targets with
  | nil => rfl
  | cons target rest =>
      simp only [extend, ownerOf_attached attached]
      rfl

/-- The answer tells whether there is an occurrence, and only then is there a move. -/
theorem propose_remove (target : Label) :
    (remove target).propose table = .ok
      (match table.indexOf? target with
      | none => (false, [])
      | some index => (true, [⟨⟨owner, some target, none⟩, (·.eraseIdx index)⟩])) := by
  simp only [remove, ownerOf_attached attached]
  cases table.indexOf? target <;> rfl

/-- Each target goes with a move of its own. -/
theorem propose_clear :
    clear.propose table = .ok ((), Move.dropAll owner table.targets) := by
  simp only [clear, ownerOf_attached attached]
  rfl

end Attached

theorem requireOwner_eq : (JumpTable.requireOwner : Step (Observed σ) Label) = look ownerOf := by
  funext s
  simp only [JumpTable.requireOwner, look, JumpTable.current, ownerOf, bind, EStateM.bind]
  cases s.table.owner <;> rfl

theorem requireEntry_eq (index : Nat) :
    (JumpTable.requireEntry index : Step (Observed σ) Label) = look (·.get index) := rfl

theorem requirePlace_eq (index : Nat) :
    (JumpTable.requirePlace index : Step (Observed σ) Unit) = look (placeIn index) := by
  funext s
  simp only [JumpTable.requirePlace, look, JumpTable.current, placeIn, bind, EStateM.bind]
  split <;> rfl

/-- An entry that was read is still there when its replacement is refused. -/
theorem set_eq (observer : Observer σ) (index : Nat) (target : Label) :
    JumpTable.set observer index target = (set index target).carryOut observer := by
  simp only [JumpTable.set, set, carryOut_bind, carryOut_single, requireOwner_eq, requireEntry_eq]
  congr 1
  funext owner
  apply look_bind_congr
  intro old s found
  obtain ⟨inside, rfl⟩ := JumpTable.get_eq_ok.mp found
  refine Step.bind_apply_congr (Move.report_eq_make ?_) fun _ _ _ => rfl
  rw [List.set_set, List.set_getElem_self]

/-- An insertion is its plan. -/
theorem insert_eq (observer : Observer σ) (index : Nat) (target : Label) :
    JumpTable.insert observer index target = (insert index target).carryOut observer := by
  simp only [JumpTable.insert, insert, carryOut_bind, carryOut_single, requireOwner_eq,
    requirePlace_eq, bind_pure_unit]
  congr 1
  funext owner
  apply look_bind_congr
  intro _ s _
  exact Move.report_eq_make (List.eraseIdx_insertIdx_self target)

/-- A removal by index is its plan. -/
theorem removeAt_eq (observer : Observer σ) (index : Nat) :
    JumpTable.removeAt observer index = (removeAt index).carryOut observer := by
  simp only [JumpTable.removeAt, removeAt, carryOut_bind, carryOut_single, requireOwner_eq,
    requireEntry_eq]
  congr 1
  funext owner
  apply look_bind_congr
  intro old s found
  obtain ⟨inside, rfl⟩ := JumpTable.get_eq_ok.mp found
  refine Step.bind_apply_congr (Move.report_eq_make ?_) fun _ _ _ => rfl
  exact List.insertIdx_eraseIdx_getElem inside

/-- A push is its plan. -/
theorem push_eq (observer : Observer σ) (target : Label) :
    JumpTable.push observer target = (push target).carryOut observer := by
  simp only [JumpTable.push, push, Move.append, List.map, carryOut_bind, carryOut_single,
    requireOwner_eq, bind_pure_unit]
  apply look_bind_congr
  intro owner s _
  exact Move.report_eq_make List.dropLast_concat

theorem requireOwner_apply {s : Observed σ} {owner : Label}
    (attached : s.table.owner = some owner) : JumpTable.requireOwner s = .ok owner s := by
  simp only [JumpTable.requireOwner, JumpTable.current, bind, EStateM.bind, attached]
  rfl

theorem requireOwner_unattached {s : Observed σ} (unattached : s.table.owner = none) :
    JumpTable.requireOwner s = .error (.illegal .unattached) s := by
  simp only [JumpTable.requireOwner, JumpTable.current, bind, EStateM.bind, unattached]
  rfl

/-- The targets may leave one by one or wait for the last answer. The induction is on those that are
left, and of the others the observer accepted each. -/
theorem walk_dropAll (observer : Observer σ) {table : JumpTable} (owner : Label)
    {gone left : List Label} (parted : table.targets = gone ++ left) (heard : σ) :
    Move.walk observer (Move.dropAll owner left) ⟨table.hold left, heard⟩ =
      match left.forM (fun target => observer.counting ⟨owner, some target, none⟩)
          (heard, gone.length) with
      | .ok _ (heard, _) => .ok () ⟨table.hold [], heard⟩
      | .error fault (heard, done) =>
          .error fault ⟨table.hold (table.targets.drop done), heard⟩ := by
  induction left generalizing gone heard with
  | nil => rfl
  | cons target rest ih =>
      have enough : (target :: rest).length ≤ table.room := by
        have fits := table.fits
        rw [parted, List.length_append] at fits
        omega
      have unmoved : table.targets.drop gone.length = target :: rest := by
        rw [parted, List.drop_left]
      have parted' : table.targets = (gone ++ [target]) ++ rest := by rw [parted, List.append_cons]
      have later := ih parted'
      rw [List.length_append, List.length_singleton] at later
      simp only [Move.dropAll, List.map_cons, Move.walk_cons, Move.make, JumpTable.report,
        List.forM_eq_forM, List.forM_cons, Observer.counting, bind, EStateM.bind, List.tail_cons,
        JumpTable.targets_hold, JumpTable.hold_hold enough]
      rcases observer ⟨owner, some target, none⟩ heard with ⟨_, next⟩ | ⟨fault, next⟩
      · exact later next
      · simp only [unmoved, JumpTable.hold_hold (Nat.le_of_succ_le enough)]

/-- Clearing is its plan, although the targets leave together. After a refusal the targets that are
left are those that no move dropped. -/
theorem clear_eq (observer : Observer σ) :
    JumpTable.clear observer = clear.carryOut observer := by
  simp only [JumpTable.clear, clear, carryOut_bind, requireOwner_eq]
  congr 1
  funext owner s
  rw [carryOut_of_ok observer (rfl : _ = Except.ok ((), Move.dropAll owner s.table.targets)),
    bind_pure_unit]
  have walked := walk_dropAll observer owner (List.nil_append s.table.targets).symm s.heard
  rw [JumpTable.hold_targets] at walked
  exact walked.symm

/-- The target that was looked for stands at the index that was found. -/
theorem get_of_indexOf? {table : JumpTable} {target : Label} {index : Nat}
    (found : table.indexOf? target = some index) : table.get index = .ok target := by
  obtain ⟨inRange, here, _⟩ := List.idxOf?_eq_some_iff.mp found
  simp [JumpTable.get, List.getElem?_eq_getElem inRange, here]

/-- The first occurrence is removed at its index. -/
theorem remove_eq (observer : Observer σ) (target : Label) :
    JumpTable.remove observer target = (remove target).carryOut observer := by
  funext s
  cases attached : s.table.owner with
  | none =>
      have refused : (remove target).propose s.table = .error (.illegal .unattached) := by
        simp only [remove, ownerOf, attached]
        rfl
      rw [carryOut_of_error observer refused]
      simp only [JumpTable.remove, bind, EStateM.bind, requireOwner_unattached attached]
  | some owner =>
      rw [carryOut_of_ok observer (propose_remove attached target)]
      simp only [JumpTable.remove, JumpTable.current, bind, EStateM.bind,
        requireOwner_apply attached]
      cases found : s.table.indexOf? target with
      | none => rfl
      | some index =>
          have proposed : (removeAt index).propose s.table =
              .ok (target, [⟨⟨owner, some target, none⟩, (·.eraseIdx index)⟩]) := by
            rw [propose_removeAt attached, get_of_indexOf? found]
            rfl
          simp only [removeAt_eq, EStateM.bind]
          rw [carryOut_of_ok observer proposed]
          simp only [bind, EStateM.bind]
          generalize Move.walk observer
            [⟨⟨owner, some target, none⟩, (·.eraseIdx index)⟩] s = walked
          cases walked <;> rfl

/-- Pushes in a row are the moves of an extension. -/
theorem forM_push {s : Observed σ} {owner : Label} (observer : Observer σ) (targets : List Label)
    (attached : s.table.owner = some owner) :
    targets.forM (JumpTable.push observer) s =
      Move.walk observer (Move.append owner targets) s := by
  induction targets generalizing s with
  | nil => rfl
  | cons target rest ih =>
      apply Step.bind_apply_congr
      · rw [push_eq, carryOut_of_ok observer (propose_push attached target), bind_pure_unit]
        exact congrFun (Move.walk_single observer _) s
      · intro _ t made
        apply ih
        have moved := (Step.eq_ok_iff.mp made).2
        rw [← moved, Move.owner_after_make, attached]

/-- Each target asks for the owner again, and no move changes it. -/
theorem extend_eq (observer : Observer σ) (targets : List Label) :
    JumpTable.extend observer targets = (extend targets).carryOut observer := by
  funext s
  cases attached : s.table.owner with
  | some owner =>
      rw [carryOut_of_ok observer (propose_extend attached targets), bind_pure_unit]
      exact forM_push observer targets attached
  | none =>
      cases targets with
      | nil => rfl
      | cons target rest =>
          have refused : (extend (target :: rest)).propose s.table =
              .error (.illegal .unattached) := by
            simp only [extend, ownerOf, attached]
            rfl
          rw [carryOut_of_error observer refused]
          simp only [JumpTable.extend, List.forM_eq_forM, List.forM_cons, JumpTable.push, bind,
            EStateM.bind, requireOwner_unattached attached]

end Plan

end Switchyard
