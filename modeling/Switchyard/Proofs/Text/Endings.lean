import Switchyard.Proofs.Text.Lines

namespace Switchyard.Text

/-- A carriage return that stands in front of no line feed is a character of its line. Behind the
last ending there is one line more only when something stands there. -/
def lines : List Char → List (List Char)
  | [] => []
  | '\n' :: rest => [] :: lines rest
  | '\r' :: '\n' :: rest => [] :: lines rest
  | c :: rest =>
      match lines rest with
      | [] => [[c]]
      | line :: others => (c :: line) :: others

/-- Lines are counted from one, and the ones that say nothing are dropped. -/
def counted (said : List (List Char)) : List Line :=
  ((said.zipIdx 1).map fun (content, number) => ⟨number, content⟩).filter (!·.content.isEmpty)

/-- No blank stands at either end. -/
structure Tight (said : List Char) : Prop where
  opens : ∀ c ∈ said.head?, isBlank c = false
  closes : ∀ c ∈ said.getLast?, isBlank c = false

/-- The line says this between its blanks and in front of its comment. -/
structure Says (line said : List Char) : Prop where
  tight : Tight said
  unmarked : '#' ∉ said
  here : ∃ left right comment, line = left ++ said ++ right ++ comment ∧
    (∀ c ∈ left, isBlank c = true) ∧ (∀ c ∈ right, isBlank c = true) ∧
    (comment = [] ∨ ∃ note, comment = '#' :: note)

/-- The line says something, and it holds neither a comment, nor an ending, nor blanks around what
it says. -/
structure Line.Tidy (line : Line) : Prop where
  present : line.content ≠ []
  unmarked : '#' ∉ line.content
  unbroken : '\n' ∉ line.content
  tight : Tight line.content

variable {said line left right comment : List Char} {part : Line}

/-- Without a blank in front nothing is dropped. -/
theorem dropWhile_of_opens (opens : ∀ c ∈ said.head?, isBlank c = false) :
    said.dropWhile isBlank = said := by
  cases said with
  | nil => rfl
  | cons c rest =>
      have solid : isBlank c = false := opens c rfl
      rw [List.dropWhile_cons_of_neg (Bool.eq_false_iff.mp solid)]

/-- What is left has no blank in front. -/
theorem opens_dropWhile (text : List Char) :
    ∀ c ∈ (text.dropWhile isBlank).head?, isBlank c = false := by
  intro c first
  have other := List.head?_dropWhile_not isBlank text
  rw [Option.mem_def.mp first] at other
  simpa using other

/-- Dropping blanks from the right does not bare a blank on the left. -/
theorem tight_trim (text : List Char) : Tight (trim text) where
  opens c first := by
    obtain ⟨behind, parted⟩ : trim text <+: text.dropWhile isBlank := List.rdropWhile_prefix _ _
    apply opens_dropWhile text
    rw [← parted, List.head?_append, Option.mem_def.mp first]
    rfl
  closes c last := by
    rw [trim, List.getLast?_reverse] at last
    exact opens_dropWhile _ c last

/-- Trimming finds what stands between the blanks. -/
theorem trim_of_tight (tight : Tight said) (leftBlank : ∀ c ∈ left, isBlank c = true)
    (rightBlank : ∀ c ∈ right, isBlank c = true) : trim (left ++ said ++ right) = said := by
  have bare : (left ++ said ++ right).dropWhile isBlank = (said ++ right).dropWhile isBlank := by
    rw [List.append_assoc, List.dropWhile_append_of_pos leftBlank]
  by_cases nothing : said = []
  · subst nothing
    rw [trim, bare, List.nil_append, List.dropWhile_eq_nil_iff.mpr rightBlank]
    rfl
  · have opens : ∀ c ∈ (said ++ right).head?, isBlank c = false := by
      rw [List.head?_append_of_ne_nil _ nothing]
      exact tight.opens
    have closes : ∀ c ∈ said.reverse.head?, isBlank c = false := by
      rw [List.head?_reverse]
      exact tight.closes
    have rightBlankToo : ∀ c ∈ right.reverse, isBlank c = true :=
      fun c listed => rightBlank c (List.mem_reverse.mp listed)
    rw [trim, bare, dropWhile_of_opens opens, List.reverse_append,
      List.dropWhile_append_of_pos rightBlankToo, dropWhile_of_opens closes, List.reverse_reverse]

/-- A comment is empty or starts with a hash sign. -/
theorem comment_dropWhile (line : List Char) :
    line.dropWhile (· ≠ '#') = [] ∨ ∃ note, line.dropWhile (· ≠ '#') = '#' :: note := by
  cases behind : line.dropWhile (· ≠ '#') with
  | nil => exact .inl rfl
  | cons c note =>
      have mark := List.head?_dropWhile_not (· ≠ '#') line
      rw [behind] at mark
      obtain rfl : c = '#' := by simpa using mark
      exact .inr ⟨note, rfl⟩

/-- A line is cut in front of its comment. -/
theorem takeWhile_of_comment (plain : ∀ c ∈ line, decide (c ≠ '#') = true)
    (closed : comment = [] ∨ ∃ note, comment = '#' :: note) :
    (line ++ comment).takeWhile (· ≠ '#') = line := by
  rw [List.takeWhile_append_of_pos plain]
  rcases closed with rfl | ⟨note, rfl⟩
  · rw [List.takeWhile_nil, List.append_nil]
  · rw [List.takeWhile_cons_of_neg (by decide), List.append_nil]

/-- A line says what stands in front of its comment, between the blanks at both ends. -/
theorem content_eq_iff : content line = said ↔ Says line said := by
  constructor
  · rintro rfl
    obtain ⟨left, right, parted, leftBlank, rightBlank⟩ :=
      exists_trim_parted (line.takeWhile (· ≠ '#'))
    have unmarked : '#' ∉ line.takeWhile (· ≠ '#') :=
      fun marked => by simpa using List.mem_takeWhile_imp marked
    rw [parted, List.mem_append, List.mem_append, not_or, not_or] at unmarked
    refine ⟨tight_trim _, unmarked.1.2, left, right, line.dropWhile (· ≠ '#'), ?_, leftBlank,
      rightBlank, comment_dropWhile line⟩
    rw [content, ← parted, List.takeWhile_append_dropWhile]
  · rintro ⟨tight, unmarked, left, right, comment, rfl, leftBlank, rightBlank, closed⟩
    have saidPlain : ∀ c ∈ said, decide (c ≠ '#') = true :=
      fun c listed => decide_eq_true (ne_of_mem_of_not_mem listed unmarked)
    have plain : ∀ c ∈ left ++ said ++ right, decide (c ≠ '#') = true := by
      rw [List.forall_mem_append, List.forall_mem_append]
      exact ⟨⟨not_hash_of_isBlank leftBlank, saidPlain⟩, not_hash_of_isBlank rightBlank⟩
    rw [content, takeWhile_of_comment plain closed, trim_of_tight tight leftBlank rightBlank]

/-- A carriage return behind a line is a blank or a part of its comment. -/
theorem content_carriageReturn (line : List Char) : content (line ++ ['\r']) = content line := by
  rw [content_eq_iff]
  generalize kept : content line = said
  obtain ⟨tight, unmarked, left, right, comment, rfl, leftBlank, rightBlank, closed⟩ :=
    content_eq_iff.mp kept
  rcases closed with rfl | ⟨note, rfl⟩
  · have rightBlankToo : ∀ c ∈ right ++ ['\r'], isBlank c = true :=
      List.forall_mem_append.mpr ⟨rightBlank, List.forall_mem_singleton.mpr (by decide)⟩
    refine ⟨tight, unmarked, left, right ++ ['\r'], [], ?_, leftBlank, rightBlankToo, .inl rfl⟩
    rw [List.append_nil, List.append_nil, List.append_assoc]
  · refine ⟨tight, unmarked, left, right, '#' :: (note ++ ['\r']), ?_, leftBlank, rightBlank,
      .inr ⟨_, rfl⟩⟩
    rw [List.append_assoc, List.cons_append]

/-- A piece between line feeds is a line, or a line with the carriage return of its ending. -/
def Returned (piece line : List Char) : Prop := piece = line ∨ piece = line ++ ['\r']

/-- A carriage return at the end of a piece says nothing. -/
theorem Returned.content_eq {piece : List Char} (returned : Returned piece line) :
    content piece = content line := by
  rcases returned with rfl | rfl
  · rfl
  · exact content_carriageReturn line

/-- Only the empty text has no line. -/
theorem lines_eq_nil {text : List Char} (nothing : lines text = []) : text = [] := by
  unfold lines at nothing
  split at nothing
  · rfl
  · cases nothing
  · cases nothing
  · split at nothing <;> cases nothing

/-- Behind the last line feed there is an empty piece that is no line. The cases are those of the
recursion on lines, where only the first piece can change. -/
theorem forall₂_returned (text : List Char) : ∃ last, (last = [] ∨ last = [[]]) ∧
    List.Forall₂ Returned (text.splitOn '\n') (lines text ++ last) := by
  fun_induction lines text with
  | case1 => exact ⟨[[]], .inr rfl, by simp [Returned]⟩
  | case2 rest ih =>
      obtain ⟨last, closed, paired⟩ := ih
      rw [splitOn_lineFeed_cons]
      exact ⟨last, closed, .cons (.inl rfl) paired⟩
  | case3 rest ih =>
      obtain ⟨last, closed, paired⟩ := ih
      rw [splitOn_cons_of_ne (by decide), splitOn_lineFeed_cons]
      exact ⟨last, closed, .cons (.inr rfl) paired⟩
  | case4 c rest within _ nothing _ =>
      obtain rfl := lines_eq_nil nothing
      rw [splitOn_cons_of_ne within]
      exact ⟨[], .inl rfl, .cons (.inl rfl) .nil⟩
  | case5 c rest within _ line others split ih =>
      obtain ⟨last, closed, paired⟩ := ih
      rw [split, List.cons_append] at paired
      obtain ⟨piece, pieces, returned, later, parted⟩ := List.forall₂_cons_right_iff.mp paired
      rw [splitOn_cons_of_ne within, parted]
      exact ⟨last, closed, .cons (returned.imp (congrArg (c :: ·)) (congrArg (c :: ·))) later⟩

/-- An empty line at the end counts for nothing. -/
theorem counted_closed (said : List (List Char)) :
    counted (said ++ [[]]) = counted said := by
  simp [counted, List.zipIdx_append]

/-- A text says what its lines say, under their numbers. -/
theorem significant_eq_counted (text : String) :
    significant text = counted ((text.toList.splitOn '\n').map content) := by
  rw [significant, numbered, counted, List.zipIdx_map, List.map_map]
  rfl

/-- Neither the carriage return of an ending nor the piece behind the last ending says anything. -/
theorem significant_eq_counted_lines (text : String) :
    significant text = counted ((lines text.toList).map content) := by
  obtain ⟨last, closed, paired⟩ := forall₂_returned text.toList
  have alike : List.Forall₂ (· = ·) ((text.toList.splitOn '\n').map content)
      ((lines text.toList ++ last).map content) := by
    rw [List.forall₂_map_left_iff, List.forall₂_map_right_iff]
    exact paired.imp fun _ _ => Returned.content_eq
  rw [List.forall₂_eq_eq_eq, List.map_append] at alike
  rw [significant_eq_counted, alike]
  rcases closed with rfl | rfl
  · rw [List.map_nil, List.append_nil]
  · exact counted_closed _

/-- Later lines have larger numbers. -/
theorem ordered_counted (said : List (List Char)) :
    (counted said).Pairwise (·.number < ·.number) := by
  have numbers : ((said.zipIdx 1).map Prod.snd).Pairwise (· < ·) := by
    rw [List.zipIdx_map_snd]
    exact List.pairwise_lt_range'
  apply List.Pairwise.filter
  rw [List.pairwise_map] at numbers ⊢
  exact numbers

/-- What a line says is tidy. -/
theorem tidy_of_mem_significant {text : String} (listed : part ∈ significant text) : part.Tidy := by
  obtain ⟨above, line, stands, speaks, rfl⟩ := mem_significant.mp listed
  obtain ⟨tight, unmarked, left, right, comment, split, _⟩ :=
    content_eq_iff.mp (rfl : content line.toList = content line.toList)
  refine ⟨speaks, unmarked, fun broken => stands.within ?_, tight⟩
  rw [split]
  simp only [List.mem_append]
  exact .inl (.inl (.inr broken))

/-- A text says what its lines say, and a line says what stands between its blanks, in front of its
comment. Behind a line feed the lines are counted on, and a line alone is the first one. So the
numbers grow, and nothing that is said has an ending, a comment or an outer blank in it. -/
theorem lines_are_counted_on :
    (∀ text : String, significant text = counted ((lines text.toList).map content)) ∧
      (∀ line said : List Char, content line = said ↔ Says line said) ∧
      (∀ above below : String, significant (above ++ "\n" ++ below) = significant above ++
        (significant below).map (Line.below (1 + above.toList.count '\n'))) ∧
      (∀ line : String, WithinLine line → significant line =
        if content line.toList = [] then [] else [⟨1, content line.toList⟩]) ∧
      ∀ text : String, (significant text).Pairwise (·.number < ·.number) ∧
        ∀ part ∈ significant text, part.Tidy := by
  refine ⟨significant_eq_counted_lines, fun _ _ => content_eq_iff, significant_append_lineFeed,
    fun line within => ?_, fun text => ⟨?_, fun _ => tidy_of_mem_significant⟩⟩
  · rw [significant_of_withinLine within]
    by_cases silent : content line.toList = []
    · simp [silent]
    · simp [silent]
  · rw [significant_eq_counted_lines]
    exact ordered_counted _

/-- A carriage return in a line, one in front of a comment and one at the end of the text are no
endings, and the line that says nothing is counted. -/
theorem returns_are_counted_on :
    let above := "\tpush 0 1\r# rest\r\n \r"
    let below := "set 0\u3000#\n\r\n a\rb \r"
    let line := " a\rb # c\r"
    significant (above ++ "\n" ++ below) =
        [⟨1, "push 0 1".toList⟩, ⟨3, "set 0".toList⟩, ⟨5, "a\rb".toList⟩] ∧
      (Line.mk 3 "set 0".toList).Tidy ∧
      WithinLine line ∧ significant line = [⟨1, "a\rb".toList⟩] := by
  intro above below line
  obtain ⟨_, _, parted, single, tidy⟩ := lines_are_counted_on
  have upper : significant above = [⟨1, "push 0 1".toList⟩] := by decide
  have lower : significant below = [⟨1, "set 0".toList⟩, ⟨3, "a\rb".toList⟩] := by decide
  have whole : significant (above ++ "\n" ++ below) =
      [⟨1, "push 0 1".toList⟩, ⟨3, "set 0".toList⟩, ⟨5, "a\rb".toList⟩] := by
    rw [parted, upper, lower]
    decide
  have within : WithinLine line := by decide
  have said : content line.toList = "a\rb".toList := by decide
  refine ⟨whole, (tidy (above ++ "\n" ++ below)).2 _ (by simp [whole]), within, ?_⟩
  rw [single line within, said]
  decide

end Switchyard.Text
