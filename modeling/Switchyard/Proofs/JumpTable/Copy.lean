import Switchyard.JumpTable.Basic
import Mathlib.Algebra.Group.Nat.Defs
import Mathlib.Data.List.Basic

namespace Switchyard

/-- A sum that is too large for a machine word is larger than every limit that is one. -/
theorem Numeral.filter_sum? {a b limit : Nat} (word : limit < bound) :
    (sum? a b).filter (· ≤ limit) = if a + b ≤ limit then some (a + b) else none := by
  unfold sum?
  by_cases fits : a + b ≤ limit
  · have small : a + b < bound := Nat.lt_of_le_of_lt fits word
    simp [fits, small]
  · have beyond : limit < a + b := Nat.lt_of_not_le fits
    by_cases small : a + b < bound <;> simp [fits, beyond, small]

namespace Buffer

variable {buffer entries : List Label} {start : Nat}
  (fits : start + entries.length ≤ buffer.length)
include fits

/-- A window inside of the buffer takes the entries, and the parts beside it stay. -/
theorem overwrite?_of_fits :
    overwrite? buffer start (start + entries.length) entries =
      some (buffer.take start ++ entries ++ buffer.drop (start + entries.length)) := by
  apply if_pos
  omega

/-- The buffer is as long as before. -/
theorem length_overwritten :
    (buffer.take start ++ entries ++ buffer.drop (start + entries.length)).length =
      buffer.length := by
  rw [List.length_append, List.length_append, List.length_take, List.length_drop]
  omega

/-- Places in front of the window, inside and behind it. -/
theorem getElem?_overwritten (place : Nat) :
    (buffer.take start ++ entries ++ buffer.drop (start + entries.length))[place]? =
      if start ≤ place ∧ place < start + entries.length then entries[place - start]?
      else buffer[place]? := by
  have front : (buffer.take start).length = start := by
    rw [List.length_take]
    omega
  rw [List.append_assoc]
  rcases Nat.lt_or_ge place start with before | notBefore
  · rw [List.getElem?_append_left (by omega), List.getElem?_take_of_lt before, if_neg (by omega)]
  · rw [List.getElem?_append_right (by omega), front]
    rcases Nat.lt_or_ge place (start + entries.length) with inside | behind
    · rw [List.getElem?_append_left (by omega), if_pos ⟨notBefore, inside⟩]
    · have same : start + entries.length + (place - start - entries.length) = place := by omega
      rw [List.getElem?_append_right (by omega), List.getElem?_drop, same, if_neg (by omega)]

end Buffer

namespace JumpTable

variable {buffer : List Label}

/-- A sum that is no machine word is beyond every buffer. -/
theorem windowEnd?_eq (table : JumpTable) (offset : Nat) (word : buffer.length < Numeral.bound) :
    table.windowEnd? offset buffer.length =
      if offset + table.length ≤ buffer.length then some (offset + table.length) else none :=
  Numeral.filter_sum? word

/-- A copy succeeds exactly when the window fits. Then the window holds the targets in order, and
every other place is as it was. Otherwise nothing is written. In neither case an access leaves the
buffer, for there always is a result. -/
theorem copied_or_untouched (table : JumpTable) (offset : Nat)
    (word : buffer.length < 2 ^ 64) :
    if offset + table.length ≤ buffer.length then
      ∃ filled, table.copyInto offset buffer = some (.ok () filled) ∧
        filled.length = buffer.length ∧
          ∀ place, filled[place]? =
            if offset ≤ place ∧ place < offset + table.length then table.targets[place - offset]?
            else buffer[place]?
    else table.copyInto offset buffer = some (.error (.outOfRange offset buffer.length) buffer) := by
  have window := table.windowEnd?_eq offset word
  split
  · next fits =>
    rw [if_pos fits] at window
    refine ⟨_, ?_, Buffer.length_overwritten fits, Buffer.getElem?_overwritten fits⟩
    simp only [copyInto, window]
    rw [length, Buffer.overwrite?_of_fits fits, Option.map_some]
  · next misfits =>
    rw [if_neg misfits] at window
    simp only [copyInto, window]

/-- Two offsets are so large that no machine word is the end of the window. The empty table fits
behind the last place and no further. -/
theorem copies_into_short_buffer :
    let table := ofList [2, 3, 4]
    let buffer := [0, 0, 0, 0, 9]
    buffer.length < 2 ^ 64 ∧
      (∃ filled, table.copyInto 1 buffer = some (.ok () filled) ∧ filled = [0, 2, 3, 4, 9]) ∧
      table.copyInto 3 buffer = some (.error (.outOfRange 3 5) buffer) ∧
      table.copyInto 18446744073709551613 buffer =
        some (.error (.outOfRange 18446744073709551613 5) buffer) ∧
      table.copyInto 18446744073709551615 buffer =
        some (.error (.outOfRange 18446744073709551615 5) buffer) ∧
      (∃ filled, empty.copyInto 5 buffer = some (.ok () filled) ∧ filled = buffer) ∧
      empty.copyInto 6 buffer = some (.error (.outOfRange 6 5) buffer) := by
  intro table buffer
  have word : buffer.length < 2 ^ 64 := by decide
  obtain ⟨filled, copied, _⟩ := copied_or_untouched table 1 word
  obtain ⟨kept, nothing, _⟩ := copied_or_untouched empty 5 word
  refine ⟨word, ⟨filled, copied, ?_⟩, copied_or_untouched table 3 word,
    copied_or_untouched table 18446744073709551613 word,
    copied_or_untouched table 18446744073709551615 word, ⟨kept, nothing, ?_⟩,
    copied_or_untouched empty 6 word⟩
  · cases copied
    rfl
  · cases nothing
    rfl

end JumpTable

end Switchyard
