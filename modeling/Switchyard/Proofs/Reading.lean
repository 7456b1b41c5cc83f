import Switchyard.Word
import Switchyard.Proofs.Numeral
import Mathlib.Data.List.Forall2

namespace Switchyard

namespace Reading

variable {ε δ α β : Type}

/-- A reading in two parts succeeds when both parts do. -/
theorem bind_eq_ok {first : Except ε α} {next : α → Except ε β} {b : β} :
    first >>= next = .ok b ↔ ∃ a, first = .ok a ∧ next a = .ok b := by
  cases first <;> simp [bind, Except.bind]

theorem mapError_eq_ok {reading : Except ε α} {rename : ε → δ} {a : α} :
    reading.mapError rename = .ok a ↔ reading = .ok a := by
  cases reading <;> simp [Except.mapError]

/-- Without its fault a reading still has its value. -/
theorem toOption_eq_some {reading : Except ε α} {a : α} :
    reading.toOption = some a ↔ reading = .ok a := by
  cases reading <;> simp [Except.toOption]

/-- Parts are read one by one, and each of them gives its own value. -/
theorem mapM_eq_ok {reading : α → Except ε β} {parts : List α} {values : List β} :
    parts.mapM reading = .ok values ↔
      List.Forall₂ (fun part value => reading part = .ok value) parts values := by
  induction parts generalizing values with
  | nil => simp [pure, Except.pure, eq_comm]
  | cons part rest ih =>
      rw [List.mapM_cons, List.forall₂_cons_left_iff]
      simp only [bind_eq_ok, ih, pure, Except.pure, Except.ok.injEq]
      constructor
      · rintro ⟨value, first, others, later, rfl⟩
        exact ⟨value, others, first, later, rfl⟩
      · rintro ⟨value, others, first, later, rfl⟩
        exact ⟨value, first, others, later, rfl⟩

/-- The fault of a reading in two parts is the first one. -/
theorem bind_eq_error {first : Except ε α} {next : α → Except ε β} {fault : ε} :
    first >>= next = .error fault ↔
      first = .error fault ∨ ∃ a, first = .ok a ∧ next a = .error fault := by
  cases first <;> simp [bind, Except.bind]

theorem mapError_eq_error {reading : Except ε α} {rename : ε → δ} {fault : δ} :
    reading.mapError rename = .error fault ↔
      ∃ cause, reading = .error cause ∧ rename cause = fault := by
  cases reading <;> simp [Except.mapError]

/-- The fault is that of the first part that cannot be read. -/
theorem mapM_eq_error {reading : α → Except ε β} {parts : List α} {fault : ε} :
    parts.mapM reading = .error fault ↔
      ∃ front part back, parts = front ++ part :: back ∧
        (∀ earlier ∈ front, ∃ value, reading earlier = .ok value) ∧
        reading part = .error fault := by
  induction parts with
  | nil => simp [pure, Except.pure]
  | cons part rest ih =>
      simp only [List.mapM_cons, bind_eq_error, pure, Except.pure, reduceCtorEq, and_false,
        exists_false, or_false]
      constructor
      · rintro (failed | ⟨value, first, later⟩)
        · exact ⟨[], part, rest, rfl, by simp, failed⟩
        · obtain ⟨front, bad, back, rfl, readable, failed⟩ := ih.mp later
          have readableToo := List.forall_mem_cons.mpr ⟨⟨value, first⟩, readable⟩
          exact ⟨part :: front, bad, back, rfl, readableToo, failed⟩
      · rintro ⟨front, bad, back, split, readable, failed⟩
        rcases front with _ | ⟨_, front⟩
        · cases split
          exact .inl failed
        · cases split
          obtain ⟨⟨value, first⟩, readable⟩ := List.forall_mem_cons.mp readable
          exact .inr ⟨value, first, ih.mpr ⟨front, bad, back, rfl, readable, failed⟩⟩

/-- A reading that fails has its fault, whatever it would have given. -/
def fault? : Except ε α → Option ε
  | .error fault => some fault
  | .ok _ => none

theorem fault?_eq_some {reading : Except ε α} {fault : ε} :
    fault? reading = some fault ↔ reading = .error fault := by
  cases reading <;> simp [fault?]

/-- Steps that follow each other fail at the first one that cannot be taken. -/
theorem foldlM_eq_error {step : β → α → Except ε β} {parts : List α} {start : β} {fault : ε} :
    parts.foldlM step start = .error fault ↔
      ∃ front part back reached, parts = front ++ part :: back ∧
        front.foldlM step start = .ok reached ∧ step reached part = .error fault := by
  induction parts generalizing start with
  | nil => simp [pure, Except.pure]
  | cons part rest ih =>
      simp only [List.foldlM_cons, bind_eq_error, ih]
      constructor
      · rintro (failed | ⟨next, first, front, bad, back, reached, rfl, taken, failed⟩)
        · exact ⟨[], part, rest, start, rfl, rfl, failed⟩
        · refine ⟨part :: front, bad, back, reached, rfl, ?_, failed⟩
          rw [List.foldlM_cons, bind_eq_ok]
          exact ⟨next, first, taken⟩
      · rintro ⟨front, bad, back, reached, split, taken, failed⟩
        rcases front with _ | ⟨_, front⟩
        · cases split
          cases taken
          exact .inl failed
        · cases split
          rw [List.foldlM_cons, bind_eq_ok] at taken
          obtain ⟨next, first, taken⟩ := taken
          exact .inr ⟨next, first, front, bad, back, reached, rfl, taken, failed⟩

/-- Values for all parts can be chosen part by part. -/
theorem exists_forall₂_iff {related : α → β → Prop} {parts : List α} :
    (∃ values, List.Forall₂ related parts values) ↔
      ∀ part ∈ parts, ∃ value, related part value := by
  induction parts with
  | nil => simp
  | cons part rest ih =>
      rw [List.forall_mem_cons, ← ih]
      constructor
      · rintro ⟨values, paired⟩
        obtain ⟨value, others, first, later, rfl⟩ := List.forall₂_cons_left_iff.mp paired
        exact ⟨⟨value, first⟩, others, later⟩
      · rintro ⟨⟨value, first⟩, others, later⟩
        exact ⟨value :: others, .cons first later⟩

/-- What is paired with two lists in a row has two parts itself. -/
theorem forall₂_append_left_iff {related : α → β → Prop} {front back : List α} {values : List β} :
    List.Forall₂ related (front ++ back) values ↔
      ∃ first second, List.Forall₂ related front first ∧ List.Forall₂ related back second ∧
        values = first ++ second := by
  constructor
  · intro paired
    refine ⟨values.take front.length, values.drop front.length, ?_, ?_,
      (List.take_append_drop _ _).symm⟩
    · simpa using List.forall₂_take front.length paired
    · simpa using List.forall₂_drop front.length paired
  · rintro ⟨first, second, here, there, rfl⟩
    exact List.rel_append here there

end Reading

/-- A word is read alike in every role. -/
theorem Role.read_eq_ok {role : Role} {word : String} {value : Nat} :
    role.read word = .ok value ↔ Numeral.Spells word value := by
  rw [Role.read, Reading.mapError_eq_ok, Numeral.read_eq_ok]

/-- A word that is no number is named with its role and with what is wrong with it. -/
theorem Role.read_eq_error {role : Role} {word : String} {bad : BadWord} :
    role.read word = .error bad ↔
      bad.role = role ∧ bad.word = word ∧ Numeral.Fails word bad.cause := by
  rw [Role.read, Reading.mapError_eq_error]
  constructor
  · rintro ⟨cause, failed, rfl⟩
    exact ⟨rfl, rfl, Numeral.read_eq_error.mp failed⟩
  · rintro ⟨rfl, rfl, fails⟩
    exact ⟨bad.cause, Numeral.read_eq_error.mpr fails, rfl⟩

end Switchyard
