import Switchyard.Proofs.Layout

namespace Switchyard.Text

/-- The line stands in the text below all of `above`, and it reaches to its line feed or to the end
of the text. -/
structure Stands (text above line : String) : Prop where
  opens : OpensLine above
  within : WithinLine line
  here : ∃ below, text = above ++ line ++ below ∧ (below = "" ∨ ∃ rest, below = "\n" ++ rest)

/-- The line with so many other lines above it. -/
def Line.below (count : Nat) (line : Line) : Line := { line with number := line.number + count }

@[simp] theorem Line.below_zero : Line.below 0 = id := rfl

variable {above below line text : String}

/-- A line feed in front leaves an empty line above. -/
theorem splitOn_lineFeed_cons (rest : List Char) :
    ('\n' :: rest).splitOn '\n' = [] :: rest.splitOn '\n' := by
  simpa using List.splitOn_append_cons_self (a := '\n') [] rest

/-- Any other character belongs to the first line. -/
theorem splitOn_cons_of_ne {c : Char} (within : c ≠ '\n') (rest : List Char) :
    (c :: rest).splitOn '\n' = (rest.splitOn '\n').modifyHead (c :: ·) := by
  simp [List.splitOn_cons_eq_if_modifyHead, within]

/-- So many line feeds part one line more. -/
theorem length_splitOn_lineFeed (text : List Char) :
    (text.splitOn '\n').length = text.count '\n' + 1 := by
  induction text with
  | nil => rfl
  | cons c rest ih =>
      by_cases fed : c = '\n'
      · subst fed
        rw [splitOn_lineFeed_cons, List.length_cons, ih, List.count_cons_self]
      · rw [splitOn_cons_of_ne fed, List.length_modifyHead, ih, List.count_cons_of_ne fed]

/-- The lines below a line feed go on counting from those above it. -/
theorem numbered_append_lineFeed (above below : List Char) :
    numbered (above ++ '\n' :: below) =
      numbered above ++ (numbered below).map (Line.below (1 + above.count '\n')) := by
  have later : 1 + (above.count '\n' + 1) = (1 + above.count '\n') + 1 := by omega
  simp only [numbered, List.splitOn_append_cons_self, List.zipIdx_append, List.map_append,
    length_splitOn_lineFeed, later, ← List.map_snd_add_zipIdx_eq_zipIdx (n := 1 + _), List.map_map]
  rfl

/-- Cutting a text at a line feed cuts its lines in two. -/
theorem significant_append_lineFeed (above below : String) :
    significant (above ++ "\n" ++ below) =
      significant above ++
        (significant below).map (Line.below (1 + above.toList.count '\n')) := by
  have parted : (above ++ "\n" ++ below).toList = above.toList ++ '\n' :: below.toList := by
    rw [String.toList_append, String.toList_append, List.append_assoc]
    rfl
  rw [significant, parted, numbered_append_lineFeed, List.filter_append, List.filter_map]
  rfl

@[simp] theorem significant_empty : significant "" = [] := by decide

/-- The empty line behind the last line feed says nothing. -/
theorem significant_closed (text : String) : significant (text ++ "\n") = significant text := by
  have whole := significant_append_lineFeed text ""
  rwa [String.append_empty, significant_empty, List.map_nil, List.append_nil] at whole

/-- Behind a line feed the lines are numbered on. -/
theorem significant_append_of_opens (opens : OpensLine above) (below : String) :
    significant (above ++ below) =
      significant above ++ (significant below).map (Line.below (above.toList.count '\n')) := by
  obtain rfl | ⟨front, rfl⟩ := opens
  · simp
  · rw [significant_append_lineFeed, significant_closed, String.toList_append,
      List.count_append, Nat.add_comm]
    rfl

/-- A single line is the first one. -/
theorem significant_of_withinLine (within : WithinLine line) :
    significant line = [⟨1, content line.toList⟩].filter (!·.content.isEmpty) := by
  rw [significant, numbered, List.splitOn_eq_singleton within]
  rfl

/-- A line says one thing at most. -/
theorem significant_append_line (opens : OpensLine above) (within : WithinLine line) :
    significant (above ++ line) = significant above ++
      [⟨1 + above.toList.count '\n', content line.toList⟩].filter (!·.content.isEmpty) := by
  have moved : [(⟨1 + above.toList.count '\n', content line.toList⟩ : Line)] =
      [⟨1, content line.toList⟩].map (Line.below (above.toList.count '\n')) := rfl
  rw [significant_append_of_opens opens, significant_of_withinLine within, moved, List.filter_map]
  rfl

/-- The lines above are followed by the line that stands below them. -/
theorem Stands.significant_eq (stands : Stands text above line)
    (speaks : content line.toList ≠ []) :
    ∃ back, significant text =
      significant above ++ ⟨1 + above.toList.count '\n', content line.toList⟩ :: back := by
  obtain ⟨opens, within, below, rfl, closed⟩ := stands
  have upper := significant_append_line opens within
  have kept : (!(content line.toList).isEmpty) = true := by simpa using speaks
  rw [List.filter_singleton, kept, cond_true] at upper
  rcases closed with rfl | ⟨rest, rfl⟩
  · exact ⟨[], by rw [String.append_empty, upper]⟩
  · rw [← String.append_assoc, significant_append_lineFeed, upper, List.append_assoc]
    exact ⟨_, rfl⟩

/-- A text is one line, or it is a text with one line more below it. -/
@[elab_as_elim]
theorem line_induction {motive : String → Prop}
    (only : ∀ line, WithinLine line → motive line)
    (more : ∀ above line, motive above → WithinLine line → motive (above ++ "\n" ++ line))
    (text : String) : motive text := by
  generalize size : text.length = n
  induction n using Nat.strongRecOn generalizing text with
  | ind n ih =>
      obtain ⟨above, line, rfl, opens, within⟩ := exists_last_line text
      obtain rfl | ⟨front, rfl⟩ := opens
      · rw [String.empty_append]
        exact only line within
      · have fed : "\n".length = 1 := by decide
        simp only [String.length_append, fed] at size
        exact more front line (ih front.length (by omega) front rfl) within

/-- A line that stands in the upper part of a text stands in the whole text. -/
theorem Stands.append_lineFeed (stands : Stands text above line) (below : String) :
    Stands (text ++ "\n" ++ below) above line := by
  obtain ⟨opens, within, behind, rfl, closed⟩ := stands
  refine ⟨opens, within, behind ++ "\n" ++ below, by simp only [String.append_assoc], ?_⟩
  right
  rcases closed with rfl | ⟨rest, rfl⟩
  · exact ⟨below, by rw [String.empty_append]⟩
  · exact ⟨rest ++ "\n" ++ below, by simp only [String.append_assoc]⟩

/-- The last line stands below all others. -/
theorem stands_last (opens : OpensLine above) (within : WithinLine line) :
    Stands (above ++ line) above line :=
  ⟨opens, within, "", (String.append_empty).symm, .inl rfl⟩

variable {front back : List Line} {part : Line}

/-- What a text says is said above its last line or by this line. -/
theorem significant_split_last (opens : OpensLine above) (within : WithinLine line)
    (split : significant (above ++ line) = front ++ part :: back) :
    (∃ rest, significant above = front ++ part :: rest) ∨
      significant above = front ∧
        part = ⟨1 + above.toList.count '\n', content line.toList⟩ ∧ content line.toList ≠ [] := by
  rw [significant_append_line opens within, List.filter_singleton] at split
  by_cases silent : content line.toList = []
  · left
    simp only [silent, List.isEmpty_nil, Bool.not_true, cond_false, List.append_nil] at split
    exact ⟨back, split⟩
  · have kept : (!(content line.toList).isEmpty) = true := by simpa using silent
    rw [kept, cond_true] at split
    rcases List.eq_nil_or_concat back with rfl | ⟨rest, last, rfl⟩
    · obtain ⟨same, here⟩ := List.append_inj' split rfl
      exact .inr ⟨same, (List.singleton_inj.mp here).symm, silent⟩
    · rw [List.concat_eq_append, ← List.cons_append, ← List.append_assoc] at split
      exact .inl ⟨rest, (List.append_inj' split rfl).1⟩

/-- Whatever a text says is said by a line in its place. -/
theorem exists_stands (split : significant text = front ++ part :: back) :
    ∃ above line, Stands text above line ∧ significant above = front ∧
      part = ⟨1 + above.toList.count '\n', content line.toList⟩ ∧ content line.toList ≠ [] := by
  induction text using line_induction generalizing back with
  | only line within =>
      have opens : OpensLine "" := .inl rfl
      have stands := stands_last opens within
      rw [String.empty_append] at stands
      rw [← String.empty_append (s := line)] at split
      rcases significant_split_last opens within split with ⟨rest, nothing⟩ | here
      · simp at nothing
      · exact ⟨"", line, stands, here⟩
  | more upper line ih within =>
      have opens : OpensLine (upper ++ "\n") := .inr ⟨upper, rfl⟩
      rcases significant_split_last opens within split with ⟨rest, earlier⟩ | here
      · rw [significant_closed] at earlier
        obtain ⟨above, other, stands, said⟩ := ih earlier
        exact ⟨above, other, stands.append_lineFeed line, said⟩
      · exact ⟨upper ++ "\n", line, stands_last opens within, here⟩

/-- A text says what its lines say in their places, and nothing else. -/
theorem mem_significant :
    part ∈ significant text ↔ ∃ above line, Stands text above line ∧ content line.toList ≠ [] ∧
      part = ⟨1 + above.toList.count '\n', content line.toList⟩ := by
  constructor
  · intro said
    obtain ⟨front, back, split⟩ := List.append_of_mem said
    obtain ⟨above, line, stands, _, here, speaks⟩ := exists_stands split
    exact ⟨above, line, stands, speaks, here⟩
  · rintro ⟨above, line, stands, speaks, rfl⟩
    obtain ⟨back, split⟩ := stands.significant_eq speaks
    rw [split]
    exact List.mem_append_right _ List.mem_cons_self

end Switchyard.Text
