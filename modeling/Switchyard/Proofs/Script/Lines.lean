import Switchyard.Proofs.Script.Writing
import Switchyard.Proofs.Text.Lines

namespace Switchyard

namespace Text

variable {words : List String}

/-- A character between the words or in one of them. -/
theorem mem_intercalate {separator : String} {c : Char}
    (written : c ∈ (separator.intercalate words).toList) :
    c ∈ separator.toList ∨ ∃ word ∈ words, c ∈ word.toList := by
  induction words with
  | nil => simp at written
  | cons word rest ih =>
      cases rest with
      | nil => exact .inr ⟨word, List.mem_singleton_self word, by simpa using written⟩
      | cons next rest =>
          simp only [String.intercalate_cons_cons, String.toList_append, List.mem_append]
            at written ih
          rcases written with (own | between) | later
          · exact .inr ⟨word, List.mem_cons_self, own⟩
          · exact .inl between
          · exact (ih later).imp_right fun ⟨other, listed, there⟩ =>
              ⟨other, List.mem_cons_of_mem _ listed, there⟩

/-- A line of solid words has these words for its row. -/
theorem row_intercalate (solid : ∀ word ∈ words, Solid word) :
    row (" ".intercalate words).toList = words := by
  have unmarked : ∀ c ∈ (" ".intercalate words).toList, decide (c ≠ '#') = true := by
    intro c written
    rw [decide_eq_true_eq]
    rintro rfl
    rcases mem_intercalate written with space | ⟨word, listed, marked⟩
    · exact absurd space (by decide)
    · exact (solid word listed).unmarked marked
  rw [row, List.takeWhile_eq_self_iff.mpr unmarked]
  exact words_intercalate solid

/-- Words in a row stay within a line. -/
theorem withinLine_intercalate (solid : ∀ word ∈ words, Solid word) :
    WithinLine (" ".intercalate words) := by
  intro fed
  rcases mem_intercalate fed with space | ⟨word, listed, broken⟩
  · exact absurd space (by decide)
  · exact absurd ((solid word listed).unbroken '\n' broken) (by decide)

end Text

namespace Edit

/-- A written edit is one row. -/
theorem rows_render (edit : Edit) : Text.rows edit.render = [edit.wording] := by
  have row := Text.row_intercalate edit.solid_wording
  have within := Text.withinLine_intercalate edit.solid_wording
  rw [← render_eq_intercalate] at row within
  rw [Text.rows_of_withinLine within, row]
  rfl

end Edit

namespace Script

variable {text : String} {script : Script} {fault : ScriptFault}

/-- One edit on each line, with or without a line feed behind the last one. -/
inductive Writes (script : Script) : String → Prop where
  | ended : Writes script (String.join (script.map (·.render ++ "\n")))
  | parted : Writes script ("\n".intercalate (script.map Edit.render))

/-- A written script has the rows of its edits. -/
theorem Writes.rows_eq (writes : script.Writes text) :
    Text.rows text = script.map Edit.wording := by
  cases writes with
  | ended =>
      induction script with
      | nil => decide
      | cons edit rest ih =>
          rw [List.map_cons, String.join_cons, Text.rows_append_lineFeed, Edit.rows_render, ih]
          rfl
  | parted =>
      induction script with
      | nil => decide
      | cons edit rest ih =>
          cases rest with
          | nil => simp [Edit.rows_render]
          | cons next rest =>
              rw [List.map_cons, List.map_cons, String.intercalate_cons_cons,
                Text.rows_append_lineFeed, Edit.rows_render, ← List.map_cons, ih]
              rfl

/-- A script whose edits all fit is read back from its writing. -/
theorem Writes.read_eq (writes : script.Writes text) (fits : ∀ edit ∈ script, edit.Fits) :
    read text = .ok script := by
  rw [read_eq_ok, writes.rows_eq, List.forall₂_map_left_iff, List.forall₂_same]
  exact fun edit listed => Edit.spelledBy_wording (fits edit listed)

/-- The first line of the text that says something and is no edit, and what is said of it. -/
structure FailsAt (text above line : String) (fault : ScriptFault) : Prop where
  stands : Text.Stands text above line
  speaks : Text.content line.toList ≠ []
  /-- All lines above are edits or say nothing. -/
  readable : ∀ part ∈ Text.significant above, ∃ edit, Edit.read part.text = .ok edit
  cause : Edit.read (String.ofList (Text.content line.toList)) = .error fault.cause
  number : fault.line = 1 + above.toList.count '\n'
  message : fault.message =
    "line " ++ toString (1 + above.toList.count '\n') ++ ": " ++ fault.cause.message

/-- A text that is no script fails at its first line that is no edit. -/
theorem read_eq_error :
    read text = .error fault ↔ ∃ above line, FailsAt text above line fault := by
  simp only [read, readLine, Reading.mapM_eq_error, Reading.mapError_eq_ok,
    Reading.mapError_eq_error]
  constructor
  · rintro ⟨front, part, back, split, readable, cause, failed, rfl⟩
    obtain ⟨above, line, stands, rfl, rfl, speaks⟩ := Text.exists_stands split
    exact ⟨above, line, stands, speaks, readable, failed, rfl, rfl⟩
  · rintro ⟨above, line, failing⟩
    obtain ⟨back, split⟩ := failing.stands.significant_eq failing.speaks
    refine ⟨_, _, back, split, failing.readable, fault.cause, failing.cause, ?_⟩
    rw [← failing.number]

/-- The edits of a script are those of the lines that say something, in their order. -/
theorem read_eq_ok_iff_lines :
    read text = .ok script ↔
      List.Forall₂ (fun part edit => Edit.read part.text = .ok edit)
        (Text.significant text) script := by
  simp only [read, readLine, Reading.mapM_eq_ok, Reading.mapError_eq_ok]

/-- A text is a script when every line that says something is an edit. -/
theorem exists_read_eq_ok :
    (∃ script, read text = .ok script) ↔ ∀ above line, Text.Stands text above line →
      Text.content line.toList ≠ [] →
        ∃ edit, Edit.read (String.ofList (Text.content line.toList)) = .ok edit := by
  simp only [read_eq_ok_iff_lines, Reading.exists_forall₂_iff, Text.mem_significant]
  constructor
  · intro readable above line stands speaks
    exact readable ⟨1 + above.toList.count '\n', Text.content line.toList⟩
      ⟨above, line, stands, speaks, rfl⟩
  · rintro readable part ⟨above, line, stands, speaks, rfl⟩
    exact readable above line stands speaks

/-- What is written is read back. A text is a script when each line that says something is an edit,
and it holds these edits in their order. Otherwise the first line that is none is to blame, and its
number counts the line feeds above it from one. -/
theorem read_line_by_line :
    (∀ (script : Script) (text : String), script.Writes text → (∀ edit ∈ script, edit.Fits) →
      read text = .ok script) ∧
    ∀ text : String,
      ((∃ script, read text = .ok script) ↔ ∀ above line, Text.Stands text above line →
        Text.content line.toList ≠ [] →
          ∃ edit, Edit.read (String.ofList (Text.content line.toList)) = .ok edit) ∧
      (∀ script, read text = .ok script ↔
        List.Forall₂ (fun part edit => Edit.read part.text = .ok edit)
          (Text.significant text) script) ∧
      ∀ fault, read text = .error fault ↔ ∃ above line, FailsAt text above line fault :=
  ⟨fun _ _ => Writes.read_eq, fun _ =>
    ⟨exists_read_eq_ok, fun _ => read_eq_ok_iff_lines, fun _ => read_eq_error⟩⟩

/-- A comment and an empty line are counted. The last line is no edit either, but the fault is about
the one above it. -/
theorem fourth_line_is_to_blame :
    let text := "# none\r\npush 0 1\n\n  set 0 x 1 # bad\npop"
    let fault : ScriptFault := ⟨4, .badWord ⟨.index, "x", .invalidDigit⟩⟩
    let script : Script := [⟨0, .clear⟩, ⟨18446744073709551615, .removeAt 7⟩]
    read text = .error fault ∧ (∃ above line, FailsAt text above line fault) ∧
      (∀ edit ∈ script, edit.Fits) ∧
      read "clear 0\nremove-at 18446744073709551615 7\n" = .ok script := by
  intro text fault script
  have failed : read text = .error fault := by decide
  have fits : ∀ edit ∈ script, edit.Fits := by decide
  have written : "clear 0\nremove-at 18446744073709551615 7\n" =
      String.join (script.map (·.render ++ "\n")) := by decide
  have back := read_line_by_line.1 script _ .ended fits
  rw [← written] at back
  exact ⟨failed, (read_line_by_line.2 text).2.2 fault |>.mp failed, fits, back⟩

end Script

end Switchyard
