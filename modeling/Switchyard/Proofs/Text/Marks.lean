import Mathlib.Data.List.Basic

namespace Switchyard.Text

/-- A name of ASCII letters, digits and underscores. -/
def Plain (name : String) : Prop := ∀ c ∈ name.toList, c.isAlphanum = true ∨ c = '_'

instance (name : String) : Decidable (Plain name) :=
  List.decidableBAll _ name.toList

variable {c : Char} {name front text : String} {lines : List String}

/-- A plain name has no mark in it. -/
theorem Plain.notMem (plain : Plain name) (strange : (c.isAlphanum || c == '_') = false) :
    c ∉ name.toList := by
  intro present
  rw [Bool.or_eq_false_iff, beq_eq_false_iff_ne] at strange
  rcases plain c present with letter | underscore
  · rw [strange.1] at letter
    cases letter
  · exact strange.2 underscore

theorem notMem_toDigits (strange : c.isDigit = false) (n : Nat) : c ∉ Nat.toDigits 10 n := by
  intro present
  rw [Nat.isDigit_of_mem_toDigits (by decide) (by decide) present] at strange
  cases strange

/-- Lines that are put below each other are the lines of the text. -/
theorem splitOn_intercalate_lines (within : ∀ line ∈ lines, '\n' ∉ line.toList)
    (present : lines ≠ []) :
    ("\n".intercalate lines).toList.splitOn '\n' = lines.map String.toList := by
  rw [String.toList_intercalate]
  apply List.splitOn_intercalate '\n'
  · exact List.forall_mem_map.mpr within
  · exact mt List.map_eq_nil_iff.mp present

/-- A text starts with another one when something can be added behind that one. -/
theorem prefix_toList_iff : front.toList <+: text.toList ↔ ∃ back, front ++ back = text := by
  constructor
  · rintro ⟨back, same⟩
    refine ⟨.ofList back, ?_⟩
    rw [← String.toList_inj, String.toList_append, String.toList_ofList, same]
  · rintro ⟨back, rfl⟩
    exact ⟨back.toList, String.toList_append.symm⟩

/-- A mark with one arrow head is found in a text with one arrow head when they fit on both sides
of it. -/
theorem infix_iff_of_notMem {mark after before behind : List Char} {head : Char}
    (plain : head ∉ before) (plainToo : head ∉ behind) :
    mark ++ head :: after <:+: before ++ head :: behind ↔ mark <:+ before ∧ after <+: behind := by
  constructor
  · rintro ⟨start, rest, same⟩
    rw [List.append_assoc, List.append_assoc, List.cons_append, ← List.append_assoc, eq_comm,
      List.append_cons_inj_of_notMem plain plainToo] at same
    exact ⟨⟨start, same.1.symm⟩, ⟨rest, same.2.2.symm⟩⟩
  · rintro ⟨⟨start, rfl⟩, ⟨rest, rfl⟩⟩
    exact ⟨start, rest, by simp⟩

end Switchyard.Text
