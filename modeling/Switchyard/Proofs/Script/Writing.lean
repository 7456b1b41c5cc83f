import Switchyard.Proofs.Label
import Switchyard.Proofs.Script.Grammar
import Switchyard.Proofs.Text.Discern

namespace Switchyard

namespace Text

/-- A word of a line has no blank in it and starts no comment. -/
structure Solid (word : String) : Prop where
  present : word ≠ ""
  unbroken : ∀ c ∈ word.toList, isBlank c = false
  unmarked : '#' ∉ word.toList

instance (word : String) : Decidable (Solid word) :=
  haveI : Decidable (∀ c ∈ word.toList, isBlank c = false) := List.decidableBAll _ word.toList
  decidable_of_iff (word ≠ "" ∧ (∀ c ∈ word.toList, isBlank c = false) ∧ '#' ∉ word.toList)
    ⟨fun ⟨present, unbroken, unmarked⟩ => ⟨present, unbroken, unmarked⟩,
      fun solid => ⟨solid.present, solid.unbroken, solid.unmarked⟩⟩

variable {words : List String}

/-- A word without blanks is one run. -/
theorem Solid.wordRuns_eq {word : String} (solid : Solid word) :
    wordRuns word.toList = [word.toList] := by
  have present : word.toList ≠ [] := mt String.toList_eq_nil_iff.mp solid.present
  simp [wordRuns, List.splitOnP_eq_singleton solid.unbroken, present]

/-- Solid words with a space between them are told apart again. -/
theorem words_intercalate (solid : ∀ word ∈ words, Solid word) :
    Text.words (" ".intercalate words) = words := by
  induction words with
  | nil => decide
  | cons word rest ih =>
      obtain ⟨first, others⟩ := List.forall_mem_cons.mp solid
      cases rest with
      | nil => simp [Text.words, first.wordRuns_eq]
      | cons next rest =>
          have later := ih others
          have blank : isBlank ' ' = true := by decide
          have parted : (" ".intercalate (word :: next :: rest)).toList =
              word.toList ++ ' ' :: (" ".intercalate (next :: rest)).toList := by
            rw [String.intercalate_cons_cons, String.toList_append, String.toList_append,
              List.append_assoc]
            rfl
          rw [Text.words] at later ⊢
          rw [parted, wordRuns_append_cons blank, first.wordRuns_eq, List.map_append, later]
          simp

theorem isBlank_of_isDigit {c : Char} (digit : c.isDigit = true) : isBlank c = false := by
  obtain ⟨low, high⟩ := Char.isDigit_iff_toNat.mp digit
  simp only [Char.reduceToNat] at low high
  simp only [isBlank, blankRanges, List.any_cons, List.any_nil, Bool.or_eq_false_iff,
    Bool.and_eq_false_iff, decide_eq_false_iff_not, and_true]
  omega

theorem solid_toString (n : Nat) : Solid (toString n) where
  present nothing := by
    have opens := number_opens n ""
    simp [nothing] at opens
  unbroken c digit := isBlank_of_isDigit (isDigit_of_mem_toString digit)
  unmarked marked := by
    have digit := isDigit_of_mem_toString marked
    exact absurd digit (by decide)

end Text

/-- Numbers that are spelled fit one machine word. -/
theorem Numeral.lt_bound_of_spells {words : List String} {values : List Nat}
    (spelled : List.Forall₂ Spells words values) : ∀ n ∈ values, n < bound := by
  induction spelled with
  | nil => simp
  | cons first _ ih =>
      obtain ⟨_, _, _, _, _, small⟩ := first
      exact List.forall_mem_cons.mpr ⟨small, ih⟩

namespace Edit

variable {edit : Edit} {row : List String}

/-- The words of a written edit. -/
def wording (edit : Edit) : List String := edit.action.keyword :: edit.numbers.map toString

/-- A written edit is its words with spaces between them. -/
theorem render_eq_intercalate (edit : Edit) : edit.render = " ".intercalate edit.wording := rfl

theorem solid_keyword (action : Action) : Text.Solid action.keyword := by
  cases action <;> (simp only [Action.keyword]; decide)

theorem solid_wording (edit : Edit) : ∀ word ∈ edit.wording, Text.Solid word := by
  refine List.forall_mem_cons.mpr ⟨solid_keyword edit.action, ?_⟩
  intro word listed
  obtain ⟨n, _, rfl⟩ := List.mem_map.mp listed
  exact Text.solid_toString n

/-- The words of a written edit can be told apart again. -/
theorem words_render (edit : Edit) : Text.words edit.render = edit.wording := by
  rw [render_eq_intercalate, Text.words_intercalate edit.solid_wording]

/-- All the numbers of the edit fit one machine word. -/
def Fits (edit : Edit) : Prop := ∀ n ∈ edit.numbers, n < Numeral.bound

instance (edit : Edit) : Decidable edit.Fits := List.decidableBAll _ edit.numbers

/-- An edit whose numbers fit is spelled by its own words. -/
theorem spelledBy_wording (fits : edit.Fits) : edit.SpelledBy edit.wording := by
  refine ⟨_, rfl, ?_⟩
  rw [List.forall₂_map_left_iff, List.forall₂_same]
  exact fun n listed => Numeral.spells_toString (fits n listed)

/-- The numbers of an edit that is spelled fit. -/
theorem SpelledBy.fits (spelled : edit.SpelledBy row) : edit.Fits := by
  obtain ⟨words, _, numbers⟩ := spelled
  exact Numeral.lt_bound_of_spells numbers

/-- Exactly the lines in one of the six forms are read, each as the edit that it shows. An edit that
fits is read back from its writing, so a line may be replaced by the writing of its edit. -/
theorem read_exactly_forms :
    (∀ line edit, read line = .ok edit ↔ Form (Text.words line) edit) ∧
      (∀ edit : Edit, edit.Fits → read edit.render = .ok edit) ∧
      ∀ line edit, read line = .ok edit → read edit.render = .ok edit := by
  have back (edit : Edit) (fits : edit.Fits) : read edit.render = .ok edit := by
    rw [read_eq_ok, words_render]
    exact spelledBy_wording fits
  refine ⟨fun line edit => ⟨form_of_read, read_of_form⟩, back, fun line edit accepted => ?_⟩
  exact back edit (read_eq_ok.mp accepted).fits

/-- A sign, zeros in front and wide blanks are read, and they are not written again. The index is
the largest number that fits. -/
theorem signed_line_is_rewritten :
    let line := "\u3000insert +007\t18446744073709551615\u00a00 "
    let edit : Edit := ⟨7, .insert 18446744073709551615 0⟩
    read line = .ok edit ∧ edit.render = "insert 7 18446744073709551615 0" ∧
      read edit.render = .ok edit := by
  intro line edit
  have accepted : read line = .ok edit := by decide
  exact ⟨accepted, by decide, read_exactly_forms.2.2 line edit accepted⟩

end Edit

end Switchyard
