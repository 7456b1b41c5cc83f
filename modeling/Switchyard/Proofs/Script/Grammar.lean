import Switchyard.Script
import Switchyard.Proofs.Reading
import Switchyard.Proofs.Text.Rows

namespace Switchyard

namespace Edit

variable {edit : Edit} {line : String} {row : List String}

/-- The numbers of an edit in the order in which they are written. -/
def numbers (edit : Edit) : List Nat :=
  edit.owner :: (edit.action.index?.toList ++ edit.action.target?.toList)

/-- The row holds the keyword of the action and then the numbers of the edit in order. -/
def SpelledBy (edit : Edit) (row : List String) : Prop :=
  ∃ words, row = edit.action.keyword :: words ∧ List.Forall₂ Numeral.Spells words edit.numbers

/-- A number is read when it is spelled, whatever its role. -/
theorem readNumber_eq_ok {role : Role} {word : String} {value : Nat} :
    readNumber role word = .ok value ↔ Numeral.Spells word value := by
  rw [readNumber, Reading.mapError_eq_ok, Role.read_eq_ok]

/-- The six forms of an edit. -/
inductive Form : List String → Edit → Prop where
  | push {o t : String} {owner target : Label} (ownerSpelled : Numeral.Spells o owner)
      (targetSpelled : Numeral.Spells t target) : Form ["push", o, t] ⟨owner, .push target⟩
  | insert {o i t : String} {owner target : Label} {index : Nat}
      (ownerSpelled : Numeral.Spells o owner) (indexSpelled : Numeral.Spells i index)
      (targetSpelled : Numeral.Spells t target) :
      Form ["insert", o, i, t] ⟨owner, .insert index target⟩
  | set {o i t : String} {owner target : Label} {index : Nat}
      (ownerSpelled : Numeral.Spells o owner) (indexSpelled : Numeral.Spells i index)
      (targetSpelled : Numeral.Spells t target) : Form ["set", o, i, t] ⟨owner, .set index target⟩
  | removeAt {o i : String} {owner : Label} {index : Nat} (ownerSpelled : Numeral.Spells o owner)
      (indexSpelled : Numeral.Spells i index) : Form ["remove-at", o, i] ⟨owner, .removeAt index⟩
  | remove {o t : String} {owner target : Label} (ownerSpelled : Numeral.Spells o owner)
      (targetSpelled : Numeral.Spells t target) : Form ["remove", o, t] ⟨owner, .remove target⟩
  | clear {o : String} {owner : Label} (ownerSpelled : Numeral.Spells o owner) :
      Form ["clear", o] ⟨owner, .clear⟩

/-- A line that is read as an edit has one of the forms. -/
theorem form_of_read (accepted : read line = .ok edit) : Form (Text.words line) edit := by
  unfold read at accepted
  generalize Text.words line = row at accepted ⊢
  split at accepted
  all_goals simp only [Reading.bind_eq_ok, readNumber_eq_ok, pure, Except.pure,
    Except.ok.injEq, reduceCtorEq] at accepted
  · obtain ⟨owner, ownerSpelled, target, targetSpelled, rfl⟩ := accepted
    exact .push ownerSpelled targetSpelled
  · obtain ⟨owner, ownerSpelled, index, indexSpelled, target, targetSpelled, rfl⟩ := accepted
    exact .insert ownerSpelled indexSpelled targetSpelled
  · obtain ⟨owner, ownerSpelled, index, indexSpelled, target, targetSpelled, rfl⟩ := accepted
    exact .set ownerSpelled indexSpelled targetSpelled
  · obtain ⟨owner, ownerSpelled, index, indexSpelled, rfl⟩ := accepted
    exact .removeAt ownerSpelled indexSpelled
  · obtain ⟨owner, ownerSpelled, target, targetSpelled, rfl⟩ := accepted
    exact .remove ownerSpelled targetSpelled
  · obtain ⟨owner, ownerSpelled, rfl⟩ := accepted
    exact .clear ownerSpelled

/-- The keyword leads to the shape of the row, and each of its numbers is read. -/
theorem read_of_form (form : Form (Text.words line) edit) : read line = .ok edit := by
  unfold read
  generalize Text.words line = row at form ⊢
  cases form with
  | push owner target | remove owner target =>
      simp only [readNumber_eq_ok.mpr owner, readNumber_eq_ok.mpr target]
      rfl
  | insert owner index target | set owner index target =>
      simp only [readNumber_eq_ok.mpr owner, readNumber_eq_ok.mpr index,
        readNumber_eq_ok.mpr target]
      rfl
  | removeAt owner index =>
      simp only [readNumber_eq_ok.mpr owner, readNumber_eq_ok.mpr index]
      rfl
  | clear owner =>
      simp only [readNumber_eq_ok.mpr owner]
      rfl

/-- The forms are the rows that spell an edit. -/
theorem form_iff_spelledBy : Form row edit ↔ edit.SpelledBy row := by
  constructor
  · intro form
    cases form with
    | push owner target => exact ⟨_, rfl, .cons owner (.cons target .nil)⟩
    | insert owner index target => exact ⟨_, rfl, .cons owner (.cons index (.cons target .nil))⟩
    | set owner index target => exact ⟨_, rfl, .cons owner (.cons index (.cons target .nil))⟩
    | removeAt owner index => exact ⟨_, rfl, .cons owner (.cons index .nil)⟩
    | remove owner target => exact ⟨_, rfl, .cons owner (.cons target .nil)⟩
    | clear owner => exact ⟨_, rfl, .cons owner .nil⟩
  · rintro ⟨words, rfl, numbers⟩
    obtain ⟨owner, action⟩ := edit
    obtain ⟨o, rest, ownerSpelled, behind, rfl⟩ := List.forall₂_cons_right_iff.mp numbers
    cases action with
    | push target =>
        obtain ⟨t, _, targetSpelled, ⟨⟩, rfl⟩ := List.forall₂_cons_right_iff.mp behind
        exact .push ownerSpelled targetSpelled
    | insert index target =>
        obtain ⟨i, _, indexSpelled, later, rfl⟩ := List.forall₂_cons_right_iff.mp behind
        obtain ⟨t, _, targetSpelled, ⟨⟩, rfl⟩ := List.forall₂_cons_right_iff.mp later
        exact .insert ownerSpelled indexSpelled targetSpelled
    | set index target =>
        obtain ⟨i, _, indexSpelled, later, rfl⟩ := List.forall₂_cons_right_iff.mp behind
        obtain ⟨t, _, targetSpelled, ⟨⟩, rfl⟩ := List.forall₂_cons_right_iff.mp later
        exact .set ownerSpelled indexSpelled targetSpelled
    | removeAt index =>
        obtain ⟨i, _, indexSpelled, ⟨⟩, rfl⟩ := List.forall₂_cons_right_iff.mp behind
        exact .removeAt ownerSpelled indexSpelled
    | remove target =>
        obtain ⟨t, _, targetSpelled, ⟨⟩, rfl⟩ := List.forall₂_cons_right_iff.mp behind
        exact .remove ownerSpelled targetSpelled
    | clear =>
        cases behind
        exact .clear ownerSpelled

/-- A text is read as the edit that its words spell. -/
theorem read_eq_ok : read line = .ok edit ↔ edit.SpelledBy (Text.words line) := by
  rw [← form_iff_spelledBy]
  exact ⟨form_of_read, read_of_form⟩

end Edit

namespace Script

variable {edit : Edit} {line : Text.Line} {text : String} {script : Script}

/-- A line is read as the edit that its row spells. -/
theorem readLine_eq_ok : readLine line = .ok edit ↔ edit.SpelledBy line.words := by
  rw [readLine, Reading.mapError_eq_ok, Edit.read_eq_ok, Text.Line.words]

/-- Each row spells its own edit. -/
theorem read_eq_ok :
    read text = .ok script ↔
      List.Forall₂ (fun row (edit : Edit) => edit.SpelledBy row) (Text.rows text) script := by
  simp only [read, Reading.mapM_eq_ok, readLine_eq_ok, ← Text.words_significant,
    List.forall₂_map_left_iff]

end Script

end Switchyard
