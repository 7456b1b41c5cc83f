import Switchyard.Text.Line
import Mathlib.Data.List.DropRight

namespace Switchyard.Text

/-- A blank ends the word in front of it, and the words behind it start anew. -/
theorem wordRuns_append_cons {c : Char} (blank : isBlank c = true) (front back : List Char) :
    wordRuns (front ++ c :: back) = wordRuns front ++ wordRuns back := by
  simp only [wordRuns, List.splitOnP_append_cons front back blank, List.filter_append]

@[simp] theorem wordRuns_nil : wordRuns [] = [] := by
  simp [wordRuns]

/-- A blank in front starts no word. -/
theorem wordRuns_cons_blank {c : Char} (blank : isBlank c = true) (text : List Char) :
    wordRuns (c :: text) = wordRuns text := by
  simpa using wordRuns_append_cons blank [] text

theorem wordRuns_cons_ne_nil {c : Char} (solid : ¬ isBlank c = true) (text : List Char) :
    wordRuns (c :: text) ≠ [] := by
  obtain ⟨word, words, split⟩ := List.exists_cons_of_ne_nil (List.splitOnP_ne_nil isBlank text)
  simp [wordRuns, List.splitOnP_cons_eq_if_modifyHead, solid, split]

/-- A text without words is blank. -/
theorem wordRuns_eq_nil_iff {text : List Char} :
    wordRuns text = [] ↔ ∀ c ∈ text, isBlank c = true := by
  induction text with
  | nil => simp
  | cons c rest ih =>
      rw [List.forall_mem_cons]
      by_cases blank : isBlank c = true
      · rw [wordRuns_cons_blank blank, ih]
        simp [blank]
      · simp [blank, wordRuns_cons_ne_nil]

/-- Blanks in front of a text belong to no word. -/
theorem wordRuns_blanks_append {blanks : List Char} (blank : ∀ c ∈ blanks, isBlank c = true)
    (text : List Char) : wordRuns (blanks ++ text) = wordRuns text := by
  induction blanks with
  | nil => rfl
  | cons c rest ih =>
      obtain ⟨first, others⟩ := List.forall_mem_cons.mp blank
      rw [List.cons_append, wordRuns_cons_blank first, ih others]

/-- Blanks behind a text belong to no word either. -/
theorem wordRuns_append_blanks {blanks : List Char} (blank : ∀ c ∈ blanks, isBlank c = true)
    (text : List Char) : wordRuns (text ++ blanks) = wordRuns text := by
  cases blanks with
  | nil => simp
  | cons c rest =>
      obtain ⟨first, others⟩ := List.forall_mem_cons.mp blank
      rw [wordRuns_append_cons first, wordRuns_eq_nil_iff.mpr others, List.append_nil]

/-- What is dropped on both sides are blanks. -/
theorem exists_trim_parted (text : List Char) : ∃ left right, text = left ++ trim text ++ right ∧
    (∀ c ∈ left, isBlank c = true) ∧ ∀ c ∈ right, isBlank c = true := by
  refine ⟨text.takeWhile isBlank, (text.dropWhile isBlank).rtakeWhile isBlank, ?_,
    fun _ => List.mem_takeWhile_imp, fun _ => List.mem_rtakeWhile_imp⟩
  have behind : trim text ++ (text.dropWhile isBlank).rtakeWhile isBlank =
      text.dropWhile isBlank := List.rdropWhile_append_rtakeWhile
  rw [List.append_assoc, behind, List.takeWhile_append_dropWhile]

/-- Blanks at the ends make no difference to the words. -/
theorem wordRuns_trim (text : List Char) : wordRuns (trim text) = wordRuns text := by
  obtain ⟨left, right, parted, leftBlank, rightBlank⟩ := exists_trim_parted text
  calc wordRuns (trim text) = wordRuns (left ++ trim text ++ right) := by
        rw [wordRuns_append_blanks rightBlank, wordRuns_blanks_append leftBlank]
    _ = wordRuns text := by rw [← parted]

/-- Nothing is left of a blank text. -/
theorem trim_eq_nil_iff {text : List Char} : trim text = [] ↔ ∀ c ∈ text, isBlank c = true := by
  constructor
  · intro nothing
    rw [← wordRuns_eq_nil_iff, ← wordRuns_trim, nothing, wordRuns_nil]
  · intro blank
    simp [trim, List.dropWhile_eq_nil_iff.mpr blank]

/-- The words of a line in front of its comment. -/
def row (line : List Char) : List String :=
  (wordRuns (line.takeWhile (· ≠ '#'))).map String.ofList

/-- Lines without a word are dropped. -/
def rows (text : String) : List (List String) :=
  ((text.toList.splitOn '\n').map row).filter (!·.isEmpty)

/-- No row reaches beyond the end of its line. -/
theorem rows_append_lineFeed (above below : String) :
    rows (above ++ "\n" ++ below) = rows above ++ rows below := by
  have parted : (above ++ "\n" ++ below).toList.splitOn '\n' =
      above.toList.splitOn '\n' ++ below.toList.splitOn '\n' := by
    rw [String.toList_append, String.toList_append, List.append_assoc]
    exact List.splitOn_append_cons_self above.toList below.toList
  rw [rows, parted, List.map_append, List.filter_append]
  rfl

/-- The words of what a line says are its row. -/
theorem words_content (number : Nat) (line : List Char) :
    (Line.mk number (content line)).words = row line := by
  simp only [Line.words, Line.text, words, content, row, String.toList_ofList, wordRuns_trim]

/-- A line says something exactly when it has a word. -/
theorem isEmpty_content (line : List Char) : (content line).isEmpty = (row line).isEmpty := by
  rw [Bool.eq_iff_iff, List.isEmpty_iff, List.isEmpty_iff, content, trim_eq_nil_iff, row,
    List.map_eq_nil_iff, wordRuns_eq_nil_iff]

/-- Numbers of lines take no part in what the lines say. -/
theorem words_significant (text : String) : (significant text).map Line.words = rows text := by
  unfold significant numbered rows
  generalize text.toList.splitOn '\n' = lines
  generalize 1 = first
  induction lines generalizing first with
  | nil => rfl
  | cons line rest ih =>
      have later := ih (first + 1)
      rw [List.zipIdx_cons, List.map_cons, List.map_cons, List.filter_cons, List.filter_cons,
        ← isEmpty_content]
      by_cases silent : (content line).isEmpty = true
      · simpa only [silent, Bool.not_true, Bool.false_eq_true, ↓reduceIte] using later
      · simpa only [silent, Bool.not_false, ↓reduceIte, List.map_cons, words_content,
          List.cons.injEq, true_and] using later

end Switchyard.Text
