import Switchyard.Proofs.Graph.Description
import Switchyard.Proofs.Script.Grammar

namespace Switchyard

namespace Text

/-- A line starts where the text starts and behind each line feed. -/
def OpensLine (front : String) : Prop := front = "" ∨ ∃ above, front = above ++ "\n"

/-- A line ends where the text ends and in front of each line feed. It may be taken to end in front
of a carriage return that stands before the line feed. -/
def ClosesLine (back : String) : Prop :=
  back = "" ∨ ∃ below, back = "\n" ++ below ∨ back = "\r\n" ++ below

/-- The text has no line feed. -/
def WithinLine (text : String) : Prop := '\n' ∉ text.toList

/-- Blanks that do not end their line. -/
def Gap (blanks : String) : Prop := ∀ c ∈ blanks.toList, isBlank c = true ∧ c ≠ '\n'

instance (text : String) : Decidable (WithinLine text) := inferInstanceAs (Decidable (¬ _))

instance (blanks : String) : Decidable (Gap blanks) :=
  List.decidableBAll _ blanks.toList

/-- A line without words says nothing, with or without a comment. -/
inductive Silent : String → Prop where
  | blank {blanks : String} (gap : Gap blanks) : Silent blanks
  | comment {blanks note : String} (gap : Gap blanks) (within : WithinLine note) :
      Silent (blanks ++ "#" ++ note)

/-- The second text is the first one with one change of its layout. -/
inductive Relaid : String → String → Prop where
  | insertLine {front line : String} (back : String) (opens : OpensLine front)
      (silent : Silent line) : Relaid (front ++ back) (front ++ line ++ "\n" ++ back)
  | appendLine {line : String} (text : String) (silent : Silent line) :
      Relaid text (text ++ "\n" ++ line)
  | comment {back note : String} (front : String) (closes : ClosesLine back)
      (within : WithinLine note) : Relaid (front ++ back) (front ++ "#" ++ note ++ back)
  | carriageReturn (front back : String) :
      Relaid (front ++ "\n" ++ back) (front ++ "\r\n" ++ back)
  | indent {front blanks : String} (back : String) (opens : OpensLine front) (gap : Gap blanks) :
      Relaid (front ++ back) (front ++ blanks ++ back)
  | trail {back blanks : String} (front : String) (closes : ClosesLine back) (gap : Gap blanks) :
      Relaid (front ++ back) (front ++ blanks ++ back)
  /-- Blanks in a line may be replaced by other ones, as long as some are left. -/
  | widen {narrow wide : String} (front back : String) (gap : Gap narrow) (present : narrow ≠ "")
      (gapToo : Gap wide) (presentToo : wide ≠ "") :
      Relaid (front ++ narrow ++ back) (front ++ wide ++ back)

/-- The words on both sides of a gap do not depend on the gap. -/
theorem wordRuns_gap {blanks : List Char} (blank : ∀ c ∈ blanks, isBlank c = true)
    (present : blanks ≠ []) (front back : List Char) :
    wordRuns (front ++ (blanks ++ back)) = wordRuns front ++ wordRuns back := by
  obtain ⟨c, rest, rfl⟩ := List.exists_cons_of_ne_nil present
  obtain ⟨first, others⟩ := List.forall_mem_cons.mp blank
  rw [List.cons_append, wordRuns_append_cons first, wordRuns_blanks_append others]

/-- No hash sign is blank. -/
theorem not_hash_of_isBlank {blanks : List Char} (blank : ∀ c ∈ blanks, isBlank c = true) :
    ∀ c ∈ blanks, decide (c ≠ '#') = true := by
  intro c present
  have differs : c ≠ '#' := by
    rintro rfl
    exact absurd (blank '#' present) (by decide)
  exact decide_eq_true differs

/-- A comment says nothing. -/
theorem row_append_hash (line note : List Char) : row (line ++ '#' :: note) = row line := by
  rw [row, row, List.takeWhile_append]
  split
  · next whole =>
    rw [List.takeWhile_cons_of_neg (by decide), List.append_nil,
      (List.takeWhile_prefix _).eq_of_length whole]
  · rfl

/-- Behind a hash sign there are comments only. -/
theorem row_append_of_hash_mem {front : List Char} (commented : '#' ∈ front) (back : List Char) :
    row (front ++ back) = row front := by
  obtain ⟨line, note, rfl, _⟩ := List.eq_append_cons_of_mem commented
  rw [List.append_assoc, List.cons_append, row_append_hash, row_append_hash]

/-- A comment starts behind all text without a hash sign. -/
theorem row_append_of_hash_notMem {front : List Char} (plain : '#' ∉ front) (back : List Char) :
    row (front ++ back) = (wordRuns (front ++ back.takeWhile (· ≠ '#'))).map String.ofList := by
  rw [row, List.takeWhile_append_of_pos]
  intro c present
  exact decide_eq_true (ne_of_mem_of_not_mem present plain)

section Blanks

variable {blanks narrow wide : List Char}

/-- Blanks in front of a line make no difference. -/
theorem row_blanks_append (blank : ∀ c ∈ blanks, isBlank c = true) (line : List Char) :
    row (blanks ++ line) = row line := by
  rw [row, row, List.takeWhile_append_of_pos (not_hash_of_isBlank blank),
    wordRuns_blanks_append blank]

/-- Blanks behind a line make no difference. -/
theorem row_append_blanks (blank : ∀ c ∈ blanks, isBlank c = true) (line : List Char) :
    row (line ++ blanks) = row line := by
  by_cases commented : '#' ∈ line
  · exact row_append_of_hash_mem commented blanks
  · have kept := row_append_of_hash_notMem commented []
    rw [row_append_of_hash_notMem commented,
      List.takeWhile_eq_self_iff.mpr (not_hash_of_isBlank blank), wordRuns_append_blanks blank]
    simpa using kept.symm

/-- Blanks between words may be more or fewer, as long as there are some. -/
theorem row_gap_congr (blank : ∀ c ∈ narrow, isBlank c = true) (present : narrow ≠ [])
    (blankToo : ∀ c ∈ wide, isBlank c = true) (presentToo : wide ≠ []) (front back : List Char) :
    row (front ++ (narrow ++ back)) = row (front ++ (wide ++ back)) := by
  by_cases commented : '#' ∈ front
  · rw [row_append_of_hash_mem commented, row_append_of_hash_mem commented]
  · rw [row_append_of_hash_notMem commented, row_append_of_hash_notMem commented,
      List.takeWhile_append_of_pos (not_hash_of_isBlank blank),
      List.takeWhile_append_of_pos (not_hash_of_isBlank blankToo),
      wordRuns_gap blank present, wordRuns_gap blankToo presentToo]

end Blanks

@[simp] theorem rows_empty : rows "" = [] := by decide

/-- A text without a line feed has one row or none. -/
theorem rows_of_withinLine {line : String} (within : WithinLine line) :
    rows line = [row line.toList].filter (!·.isEmpty) := by
  rw [rows, List.splitOn_eq_singleton within]
  rfl

/-- A text may be cut in front of a line. -/
theorem rows_append_of_opens {front : String} (opens : OpensLine front) (back : String) :
    rows (front ++ back) = rows front ++ rows back := by
  obtain rfl | ⟨above, rfl⟩ := opens
  · simp
  · have parted := rows_append_lineFeed above ""
    rw [String.append_empty, rows_empty, List.append_nil] at parted
    rw [rows_append_lineFeed, parted]

/-- The last line feed is the first one of the reversed text. -/
theorem exists_last_line (text : String) :
    ∃ above line, text = above ++ line ∧ OpensLine above ∧ WithinLine line := by
  by_cases fed : '\n' ∈ text.toList
  · obtain ⟨line, above, parted, within⟩ :=
      List.eq_append_cons_of_mem (List.mem_reverse.mpr fed)
    rw [List.reverse_eq_iff, List.reverse_append, List.reverse_cons] at parted
    refine ⟨.ofList (above.reverse ++ ['\n']), .ofList line.reverse, ?_,
      .inr ⟨.ofList above.reverse, String.ofList_append⟩, ?_⟩
    · rw [← String.ofList_append, ← parted, String.ofList_toList]
    · rwa [WithinLine, String.toList_ofList, List.mem_reverse]
  · exact ⟨"", text, by simp, .inl rfl, fed⟩

/-- Every text has a first line. -/
theorem exists_first_line (text : String) :
    ∃ line below, text = line ++ below ∧ WithinLine line ∧ ClosesLine below := by
  by_cases fed : '\n' ∈ text.toList
  · obtain ⟨line, below, parted, within⟩ := List.eq_append_cons_of_mem fed
    refine ⟨.ofList line, .ofList ('\n' :: below), ?_, ?_, .inr ⟨.ofList below, .inl ?_⟩⟩
    · rw [← String.ofList_append, ← parted, String.ofList_toList]
    · rwa [WithinLine, String.toList_ofList]
    · exact (String.ofList_append : String.ofList (['\n'] ++ below) = _)
  · exact ⟨text, "", by simp, fed, .inl rfl⟩

theorem Gap.blank {blanks : String} (gap : Gap blanks) : ∀ c ∈ blanks.toList, isBlank c = true :=
  fun c present => (gap c present).1

/-- A gap stays within its line. -/
theorem Gap.withinLine {blanks : String} (gap : Gap blanks) : WithinLine blanks :=
  fun present => (gap '\n' present).2 rfl

theorem WithinLine.append {front back : String} (within : WithinLine front)
    (withinToo : WithinLine back) : WithinLine (front ++ back) := by
  rw [WithinLine, String.toList_append, List.mem_append]
  exact not_or.mpr ⟨within, withinToo⟩

/-- The last line of a text may be replaced by another one that has the same row. -/
theorem rows_congr_last {line other : String} (within : WithinLine line)
    (withinToo : WithinLine other) (same : row line.toList = row other.toList) {above : String}
    (opens : OpensLine above) : rows (above ++ line) = rows (above ++ other) := by
  rw [rows_append_of_opens opens, rows_append_of_opens opens, rows_of_withinLine within,
    rows_of_withinLine withinToo, same]

/-- A gap at the end of a text makes no difference. -/
theorem rows_append_gap {blanks : String} (front : String) (gap : Gap blanks) :
    rows (front ++ blanks) = rows front := by
  obtain ⟨above, line, rfl, opens, plain⟩ := exists_last_line front
  have same : row (line ++ blanks).toList = row line.toList := by
    rw [String.toList_append, row_append_blanks gap.blank]
  rw [String.append_assoc, rows_congr_last (plain.append gap.withinLine) plain same opens]

/-- A comment reaches to the end of its line. -/
theorem rows_append_comment {note : String} (front : String) (within : WithinLine note) :
    rows (front ++ "#" ++ note) = rows front := by
  obtain ⟨above, line, rfl, opens, plain⟩ := exists_last_line front
  have hash : WithinLine "#" := by decide
  have same : row (line ++ ("#" ++ note)).toList = row line.toList := by
    rw [String.toList_append, String.toList_append]
    exact row_append_hash line.toList note.toList
  rw [String.append_assoc, String.append_assoc,
    rows_congr_last (plain.append (hash.append within)) plain same opens]

/-- A carriage return in front of a line feed makes no difference. -/
theorem rows_carriageReturn (front back : String) :
    rows (front ++ "\r\n" ++ back) = rows (front ++ "\n" ++ back) := by
  have ending : front ++ "\r\n" = front ++ "\r" ++ "\n" := by
    rw [String.append_assoc]
    rfl
  rw [ending, rows_append_lineFeed, rows_append_lineFeed, rows_append_gap front (by decide)]

/-- An empty first line makes no difference. -/
theorem rows_lineFeed_append (below : String) : rows ("\n" ++ below) = rows below := by
  have parted := rows_append_lineFeed "" below
  rwa [String.empty_append, rows_empty, List.nil_append] at parted

/-- A text may be cut behind a line. -/
theorem rows_append_of_closes {back : String} (closes : ClosesLine back) (front : String) :
    rows (front ++ back) = rows front ++ rows back := by
  obtain rfl | ⟨below, rfl | rfl⟩ := closes
  · simp
  · rw [← String.append_assoc, rows_append_lineFeed, rows_lineFeed_append]
  · have returned := rows_carriageReturn "" below
    rw [String.empty_append, String.empty_append, rows_lineFeed_append] at returned
    rw [← String.append_assoc, rows_carriageReturn, rows_append_lineFeed, returned]

/-- A comment at the end of a line makes no difference. -/
theorem rows_comment {back note : String} (front : String) (closes : ClosesLine back)
    (within : WithinLine note) : rows (front ++ "#" ++ note ++ back) = rows (front ++ back) := by
  rw [rows_append_of_closes closes, rows_append_of_closes closes, rows_append_comment front within]

/-- Blanks at the end of a line make no difference. -/
theorem rows_trail {back blanks : String} (front : String) (closes : ClosesLine back)
    (gap : Gap blanks) : rows (front ++ blanks ++ back) = rows (front ++ back) := by
  rw [rows_append_of_closes closes, rows_append_of_closes closes, rows_append_gap front gap]

/-- Blanks at the start of a line make no difference. -/
theorem rows_indent {front blanks : String} (back : String) (opens : OpensLine front)
    (gap : Gap blanks) : rows (front ++ blanks ++ back) = rows (front ++ back) := by
  obtain ⟨line, below, rfl, plain, closes⟩ := exists_first_line back
  have same : row (blanks ++ line).toList = row line.toList := by
    rw [String.toList_append, row_blanks_append gap.blank]
  rw [← String.append_assoc, ← String.append_assoc, rows_append_of_closes closes,
    rows_append_of_closes closes, String.append_assoc,
    rows_congr_last (gap.withinLine.append plain) plain same opens]

/-- Blanks between words may be other blanks. -/
theorem rows_widen {narrow wide : String} (front back : String) (gap : Gap narrow)
    (present : narrow ≠ "") (gapToo : Gap wide) (presentToo : wide ≠ "") :
    rows (front ++ narrow ++ back) = rows (front ++ wide ++ back) := by
  obtain ⟨above, before, rfl, opens, plain⟩ := exists_last_line front
  obtain ⟨behind, below, rfl, plainToo, closes⟩ := exists_first_line back
  have same : row (before ++ (narrow ++ behind)).toList =
      row (before ++ (wide ++ behind)).toList := by
    simp only [String.toList_append]
    exact row_gap_congr gap.blank (mt String.toList_eq_nil_iff.mp present) gapToo.blank
      (mt String.toList_eq_nil_iff.mp presentToo) before.toList behind.toList
  have last := rows_congr_last (plain.append (gap.withinLine.append plainToo))
    (plain.append (gapToo.withinLine.append plainToo)) same opens
  simp only [← String.append_assoc] at last ⊢
  rw [rows_append_of_closes closes, rows_append_of_closes closes, last]

/-- A line of layout alone has no row. -/
theorem Silent.rows_eq_nil {line : String} (silent : Silent line) : rows line = [] := by
  have bare {blanks : String} (gap : Gap blanks) : rows blanks = [] := by
    simpa using rows_append_gap "" gap
  cases silent with
  | blank gap => exact bare gap
  | comment gap within => rw [rows_append_comment _ within, bare gap]

/-- No change of the layout shows in the rows. -/
theorem Relaid.rows_eq {text other : String} (relaid : Relaid text other) :
    rows text = rows other := by
  cases relaid with
  | insertLine back opens silent =>
      rw [rows_append_lineFeed, rows_append_of_opens opens, rows_append_of_opens opens,
        silent.rows_eq_nil, List.append_nil]
  | appendLine text silent =>
      rw [rows_append_lineFeed, silent.rows_eq_nil, List.append_nil]
  | comment front closes within => exact (rows_comment front closes within).symm
  | carriageReturn front back => exact (rows_carriageReturn front back).symm
  | indent back opens gap => exact (rows_indent back opens gap).symm
  | trail front closes gap => exact (rows_trail front closes gap).symm
  | widen front back gap present gapToo presentToo =>
      exact rows_widen front back gap present gapToo presentToo

end Text

variable {text other : String}

/-- Texts with the same rows describe the same graph. -/
theorem Graph.read_of_rows_eq {g : Graph} (same : Text.rows text = Text.rows other)
    (described : Graph.read text = .ok g) : Graph.read other = .ok g := by
  obtain ⟨size, switches, written, _⟩ := describes_of_read described
  obtain ⟨header, lines, split, _⟩ := written.written
  exact read_of_reorder split (same ▸ split) (.refl lines) described

/-- Texts that differ in layout describe the same graph, or none, and they hold the same script, or
none. -/
theorem Text.layout_is_ignored (relaid : Relation.EqvGen Relaid text other) :
    (∀ g, Graph.read text = .ok g ↔ Graph.read other = .ok g) ∧
      ∀ script, Script.read text = .ok script ↔ Script.read other = .ok script := by
  have same : rows text = rows other := by
    induction relaid with
    | rel text other step => exact step.rows_eq
    | refl text => rfl
    | symm text other _ ih => exact ih.symm
    | trans text between other _ _ first second => exact first.trans second
  refine ⟨fun g => ⟨Graph.read_of_rows_eq same, Graph.read_of_rows_eq same.symm⟩, fun script => ?_⟩
  rw [Script.read_eq_ok, Script.read_eq_ok, same]

/-- The first line gets a comment and a carriage return, a space becomes another blank and a tab,
and a line that says nothing is added. -/
theorem Text.relaid_switch_is_read_alike :
    let text := "blocks 2\nswitch 1 0"
    let other := "blocks 2# two # blocks\r\nswitch 1\u3000\t0\n  # end"
    Relation.EqvGen Relaid text other ∧ ∃ g, Graph.read text = .ok g ∧ Graph.read other = .ok g := by
  intro text other
  have commented : Relaid text "blocks 2# two # blocks\nswitch 1 0" :=
    .comment "blocks 2" (.inr ⟨"switch 1 0", .inl rfl⟩) (by decide : WithinLine " two # blocks")
  have returned : Relaid "blocks 2# two # blocks\nswitch 1 0"
      "blocks 2# two # blocks\r\nswitch 1 0" :=
    .carriageReturn "blocks 2# two # blocks" "switch 1 0"
  have widened : Relaid "blocks 2# two # blocks\r\nswitch 1 0"
      "blocks 2# two # blocks\r\nswitch 1\u3000\t0" :=
    .widen "blocks 2# two # blocks\r\nswitch 1" "0" (by decide : Gap " ") (by decide)
      (by decide : Gap "\u3000\t") (by decide)
  have added : Relaid "blocks 2# two # blocks\r\nswitch 1\u3000\t0" other :=
    .appendLine _ (.comment (by decide : Gap "  ") (by decide : WithinLine " end"))
  have relaid : Relation.EqvGen Relaid text other :=
    .trans _ _ _ (.rel _ _ commented) (.trans _ _ _ (.rel _ _ returned)
      (.trans _ _ _ (.rel _ _ widened) (.rel _ _ added)))
  have spelled (digit : String) (value : Nat) (read : Numeral.read digit = .ok value) :
      Numeral.Spells digit value := Numeral.read_eq_ok.mp read
  have described : Graph.Describes text 2 [(1, [0])] := {
    written := ⟨["blocks", "2"], [["switch", "1", "0"]], by decide,
      ⟨"2", rfl, spelled "2" 2 (by decide), by decide⟩,
      .cons ⟨"1", ["0"], rfl, spelled "1" 1 (by decide), .cons (spelled "0" 0 (by decide)) .nil⟩
        .nil⟩
    ownersInside := by decide
    targetsInside := by decide
    ownersDistinct := by decide }
  obtain ⟨g, read, _⟩ := Graph.read_of_describes described
  exact ⟨relaid, g, read, (layout_is_ignored relaid).1 g |>.mp read⟩

end Switchyard
