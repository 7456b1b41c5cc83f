import Switchyard.Report.Text
import Switchyard.Proofs.Script.Grammar
import Switchyard.Proofs.Text.Discern

namespace Switchyard

open Text

/-- The word for an absent label starts with no digit. -/
theorem Label.discerns_orNone (a b : Option Label) :
    Discerns Label.orNone (OpensWithout Char.isDigit) a b := by
  have apart (n : Label) (s t : String) : toString n ++ s ≠ "none" ++ t :=
    number_append_ne (by simp [OpensWithout]) n s
  intro s t closed closedToo same
  cases a with
  | none =>
      cases b with
      | none => exact ⟨rfl, (String.append_right_inj "none").mp same⟩
      | some n => exact absurd same.symm (apart n t s)
  | some m =>
      cases b with
      | none => exact absurd same (apart m s t)
      | some n =>
          obtain ⟨rfl, rest⟩ := discerns_number m n s t closed closedToo same
          exact ⟨rfl, rest⟩

/-- A change ends at its bracket. -/
theorem Change.discerns_render (a b : Change) : Discerns Change.render (fun _ => True) a b := by
  intro s t _ _ same
  simp only [Change.render, String.append_assoc] at same
  obtain ⟨owners, later⟩ := (discerns_number a.owner b.owner).marked
    (by simp [OpensWithout]) same
  obtain ⟨olds, later⟩ := (Label.discerns_orNone a.old b.old).marked
    (by simp [OpensWithout]) later
  obtain ⟨news, rest⟩ := (Label.discerns_orNone a.new b.new).marked
    (by simp [OpensWithout]) later
  refine ⟨?_, rest⟩
  cases a
  cases b
  simp_all only

namespace Edit

/-- The keyword tells which numbers there are. -/
theorem eq_of_numbers {a b : Edit} (keywords : a.action.keyword = b.action.keyword)
    (numbers : a.numbers = b.numbers) : a = b := by
  obtain ⟨owner, action⟩ := a
  obtain ⟨other, another⟩ := b
  cases action <;> cases another <;>
    simp_all [Edit.numbers, Action.keyword, Action.index?, Action.target?]

/-- No keyword has a space in it. -/
theorem keyword_solid (action : Action) : ∀ c ∈ action.keyword.toList, (c != ' ') = true := by
  cases action <;> simp [Action.keyword]

/-- An edit is its keyword and then its numbers, each behind a space. -/
theorem render_eq (edit : Edit) :
    edit.render = edit.action.keyword ++ String.join (edit.numbers.map (" " ++ toString ·)) := by
  rw [render, intercalate_cons, ← List.map_cons (f := toString), List.map_map]
  rfl

/-- The line of an edit ends with its last number. -/
theorem discerns_line (a b : Edit) : Discerns (fun e => e.render ++ "\n") (fun _ => True) a b := by
  have spaced (edit : Edit) (s : String) :
      OpensWithout (· != ' ') (String.join (edit.numbers.map (" " ++ toString ·)) ++ s) := by
    simp [OpensWithout, numbers]
  have ends (s : String) :
      Ends (fun n : Nat => " " ++ toString n) (OpensWithout Char.isDigit) ("\n" ++ s) := {
    behind := by simp [OpensWithout]
    apart := fun n rest => by simp [← String.toList_inj] }
  intro s t _ _ same
  simp only [render_eq, String.append_assoc] at same
  obtain ⟨keywords, later⟩ := discerns_run (keyword_solid a.action) (keyword_solid b.action) _ _
    (spaced a _) (spaced b _) same
  obtain ⟨numbers, later⟩ := discerns_join (fun m _ n _ => (discerns_number m n).behind " ")
    (fun n rest => by simp [OpensWithout]) _ _ (ends s) (ends t) later
  exact ⟨eq_of_numbers keywords numbers, (String.append_right_inj "\n").mp later⟩

end Edit

namespace Report

/-- The line of a change with its ending. -/
def changeText (change : Change) : String := "  " ++ change.render ++ "\n"

/-- The lines of an edit, each with its ending. -/
def editText (applied : Applied) : String :=
  applied.edit.render ++ "\n" ++ String.join (applied.changes.map changeText)

/-- The line of a switch with its ending. -/
def switchText (entry : Label × List Label) : String := switchLine entry.1 entry.2 ++ "\n"

/-- A predecessor with its number of edges. -/
def sourceText (source : Label × Nat) : String := toString source.1 ++ "x" ++ toString source.2

/-- The line of a row of predecessors with its ending. -/
def predecessorsText (entry : Label × List (Label × Nat)) : String :=
  predecessorsLine entry.1 entry.2 ++ "\n"

theorem predecessorsLine_eq (b : Label) (sources : List (Label × Nat)) :
    predecessorsLine b sources =
      "  " ++ toString b ++ " <- " ++ " ".intercalate (sources.map sourceText) := rfl

/-- All that stands behind the edits. -/
def tablesText (report : Report) : String :=
  (if report.edits.isEmpty then "" else "\n") ++ "switches:\n" ++
    (String.join (report.switches.map switchText) ++ ("predecessors:\n" ++
      String.join (report.predecessors.map predecessorsText)))

/-- Lines are joined item by item. -/
theorem join_flatMap {α : Type} (lines : α → List String) (items : List α) :
    String.join (items.flatMap lines) = String.join (items.map fun a => String.join (lines a)) := by
  induction items with
  | nil => rfl
  | cons a rest ih =>
      rw [List.flatMap_cons, String.join_append, ih, List.map_cons, String.join_cons]

/-- A report is the text of its edits and then the text of its tables. -/
theorem toText_eq (report : Report) :
    report.toText = String.join (report.edits.map editText) ++ report.tablesText := by
  have editLines_eq (applied : Applied) :
      String.join ((editLines applied).map (· ++ "\n")) = editText applied := by
    simp only [editLines, editText, List.map_cons, String.join_cons, List.map_map]
    rfl
  have gap : String.join ((if report.edits.isEmpty then [] else [""]).map (· ++ "\n")) =
      if report.edits.isEmpty then "" else "\n" := by
    split <;> rfl
  simp only [toText, textLines, tablesText, List.map_append, List.map_cons, List.map_map,
    List.map_flatMap, String.join_append, String.join_cons, join_flatMap, editLines_eq, gap,
    String.append_assoc]
  rfl

/-- The line of a change tells the change. -/
theorem discerns_changeText (a b : Change) : Discerns changeText (fun _ => True) a b := by
  intro s t _ _ same
  simp only [changeText, String.append_assoc] at same
  obtain ⟨rfl, later⟩ := Change.discerns_render a b _ _ trivial trivial
    ((String.append_right_inj "  ").mp same)
  exact ⟨rfl, (String.append_right_inj "\n").mp later⟩

/-- An edit keeps all indented lines behind it. -/
theorem discerns_editText (a b : Applied) : Discerns editText (OpensWithout (· == ' ')) a b := by
  have ends {s : String} (closed : OpensWithout (· == ' ') s) :
      Ends changeText (fun _ => True) s := {
    behind := trivial
    apart := by
      rintro change rest rfl
      simp [OpensWithout, changeText] at closed }
  intro s t closed closedToo same
  simp only [editText, String.append_assoc] at same
  obtain ⟨edits, later⟩ := Edit.discerns_line a.edit b.edit _ _ trivial trivial
    (by simpa only [String.append_assoc] using same)
  obtain ⟨changes, rest⟩ := discerns_join (fun c _ d _ => discerns_changeText c d)
    (fun _ _ => trivial) s t (ends closed) (ends closedToo) later
  refine ⟨?_, rest⟩
  cases a
  cases b
  simp_all only

/-- The line of a switch tells its label and its targets. -/
theorem discerns_switchText (a b : Label × List Label) :
    Discerns switchText (fun _ => True) a b := by
  have ends (s : String) :
      EndsParted (toString : Label → String) (OpensWithout Char.isDigit) ", " ("]" ++ s) := {
    behind := by simp [OpensWithout]
    apart := number_append_ne (by simp [OpensWithout])
    parted := by simp [← String.toList_inj] }
  intro s t _ _ same
  simp only [switchText, switchLine, String.append_assoc, String.append_right_inj] at same
  obtain ⟨blocks, later⟩ := (discerns_number a.1 b.1).marked (by simp [OpensWithout]) same
  obtain ⟨targets, later⟩ := discerns_intercalate (fun m _ n _ => discerns_number m n)
    (by simp [OpensWithout]) _ _ (ends _) (ends _) later
  exact ⟨Prod.ext blocks targets, by simpa only [String.append_right_inj] using later⟩

/-- A predecessor ends in front of anything but a digit. -/
theorem discerns_sourceText (a b : Label × Nat) :
    Discerns sourceText (OpensWithout Char.isDigit) a b := by
  intro s t closed closedToo same
  simp only [sourceText, String.append_assoc] at same
  obtain ⟨sources, later⟩ := (discerns_number a.1 b.1).marked (by simp [OpensWithout]) same
  obtain ⟨counts, rest⟩ := discerns_number a.2 b.2 s t closed closedToo later
  exact ⟨Prod.ext sources counts, rest⟩

/-- The line of a row tells its label and its predecessors. -/
theorem discerns_predecessorsText (a b : Label × List (Label × Nat)) :
    Discerns predecessorsText (fun _ => True) a b := by
  have ends (s : String) :
      EndsParted sourceText (OpensWithout Char.isDigit) " " ("\n" ++ s) := {
    behind := by simp [OpensWithout]
    apart := fun source rest => by
      rw [sourceText, String.append_assoc, String.append_assoc]
      exact number_append_ne (by simp [OpensWithout]) _ _
    parted := by simp [← String.toList_inj] }
  intro s t _ _ same
  simp only [predecessorsText, predecessorsLine_eq, String.append_assoc,
    String.append_right_inj] at same
  obtain ⟨blocks, later⟩ := (discerns_number a.1 b.1).marked (by simp [OpensWithout]) same
  obtain ⟨sources, later⟩ := discerns_intercalate (fun m _ n _ => discerns_sourceText m n)
    (by simp [OpensWithout]) _ _ (ends s) (ends t) later
  exact ⟨Prod.ext blocks sources, (String.append_right_inj "\n").mp later⟩

/-- No edit is called `switches:`, and none is an empty line. -/
theorem ends_editText (report : Report) :
    Ends editText (OpensWithout (· == ' ')) report.tablesText where
  behind := by
    unfold tablesText
    split <;> simp [OpensWithout]
  apart applied rest := by
    simp only [editText, Edit.render_eq, tablesText]
    cases applied.edit.action <;> split <;> simp [← String.toList_inj, Action.keyword]

/-- The whole report can be read off its text. -/
theorem toText_injective : Function.Injective toText := by
  intro report other same
  have startsWithWord (applied : Applied) (rest : String) :
      OpensWithout (· == ' ') (editText applied ++ rest) := by
    simp only [editText, Edit.render_eq]
    cases applied.edit.action <;> simp [OpensWithout, Action.keyword]
  have switchesEnd (s : String) : Ends switchText (fun _ => True) ("predecessors:\n" ++ s) := {
    behind := trivial
    apart := fun entry rest => by simp [← String.toList_inj, switchText, switchLine] }
  have predecessorsEnd : Ends predecessorsText (fun _ => True) "" := {
    behind := trivial
    apart := fun entry rest => by simp [← String.toList_inj, predecessorsText, predecessorsLine] }
  rw [toText_eq, toText_eq] at same
  obtain ⟨edits, later⟩ := discerns_join (fun a _ b _ => discerns_editText a b) startsWithWord _ _
    report.ends_editText other.ends_editText same
  simp only [tablesText, edits, String.append_right_inj] at later
  obtain ⟨switches, later⟩ := discerns_join (fun a _ b _ => discerns_switchText a b)
    (fun _ _ => trivial) _ _ (switchesEnd _) (switchesEnd _) later
  have tables := (String.append_right_inj "predecessors:\n").mp later
  obtain ⟨predecessors, _⟩ := discerns_join (fun a _ b _ => discerns_predecessorsText a b)
    (fun _ _ => trivial) _ _ predecessorsEnd predecessorsEnd (congrArg (· ++ "") tables)
  cases report
  cases other
  simp_all only

end Report

end Switchyard
