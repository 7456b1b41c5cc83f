import Switchyard.Label
import Switchyard.Proofs.Reading

namespace Switchyard

namespace Numeral

/-- The digits of a word without its sign, and without the zeros in front that say nothing. When
there is nothing but zeros, one of them is left. -/
def bare (word : String) : String :=
  match (unsigned word.toList).dropWhile (· = '0') with
  | [] => "0"
  | digits => String.ofList digits

variable {c : Char} {digits rest : List Char} {word : String} {value : Nat}

theorem lt_ten_of_isDigit (digit : c.isDigit = true) : c.toNat - '0'.toNat < 10 := by
  obtain ⟨_, high⟩ := Char.isDigit_iff_toNat.mp digit
  simp only [Char.reduceToNat] at high ⊢
  omega

/-- A digit is written for its own value. -/
theorem digitChar_of_isDigit (digit : c.isDigit = true) :
    Nat.digitChar (c.toNat - '0'.toNat) = c := by
  obtain ⟨low, _⟩ := Char.isDigit_iff_toNat.mp digit
  have small := lt_ten_of_isDigit digit
  apply Char.toNat_inj.mp
  rw [Nat.toNat_digitChar_of_lt_ten small]
  simp only [Char.reduceToNat] at low ⊢
  omega

/-- Further digits stay as they are written. A value of zero is excepted, as the digit that it is
written with is lost. -/
theorem toDigits_ofDigitChars_of_pos {sofar : Nat} (positive : 0 < sofar)
    (allDigits : ∀ c ∈ digits, c.isDigit = true) :
    Nat.toDigits 10 (Nat.ofDigitChars 10 digits sofar) = Nat.toDigits 10 sofar ++ digits := by
  induction digits generalizing sofar with
  | nil => simp
  | cons c rest ih =>
      obtain ⟨digit, others⟩ := List.forall_mem_cons.mp allDigits
      have small := lt_ten_of_isDigit digit
      have later := ih (by omega : 0 < 10 * sofar + (c.toNat - '0'.toNat)) others
      rw [Nat.ofDigitChars_cons, later, ← Nat.toDigits_append_toDigits (by decide) positive small,
        Nat.toDigits_of_lt_base small, digitChar_of_isDigit digit, List.append_assoc,
        List.singleton_append]

/-- Digits that start with no zero are the ones that their value is written with. -/
theorem toDigits_ofDigitChars (led : c ≠ '0')
    (allDigits : ∀ d ∈ c :: rest, d.isDigit = true) :
    Nat.toDigits 10 (Nat.ofDigitChars 10 (c :: rest) 0) = c :: rest := by
  obtain ⟨digit, others⟩ := List.forall_mem_cons.mp allDigits
  have single : Nat.toDigits 10 (c.toNat - '0'.toNat) = [c] := by
    rw [Nat.toDigits_of_lt_base (lt_ten_of_isDigit digit), digitChar_of_isDigit digit]
  have positive : 0 < c.toNat - '0'.toNat := by
    rw [Nat.pos_iff_ne_zero]
    intro zero
    rw [zero, Nat.toDigits_zero] at single
    exact led (List.singleton_inj.mp single).symm
  rw [Nat.ofDigitChars_cons, Nat.mul_zero, Nat.zero_add,
    toDigits_ofDigitChars_of_pos positive others, single, List.singleton_append]

/-- Zeros in front do not count. -/
theorem ofDigitChars_dropWhile (digits : List Char) :
    Nat.ofDigitChars 10 (digits.dropWhile (· = '0')) 0 = Nat.ofDigitChars 10 digits 0 := by
  induction digits with
  | nil => rfl
  | cons c rest ih =>
      by_cases zero : c = '0'
      · subst zero
        rw [List.dropWhile_cons_of_pos (by decide), ih, Nat.ofDigitChars_cons]
        rfl
      · rw [List.dropWhile_cons_of_neg (by simpa using zero)]

/-- A spelled number is written without the sign and the zeros that say nothing. -/
theorem toString_of_spells (spelled : Spells word value) : toString value = bare word := by
  obtain ⟨_, allDigits, reached, _⟩ := spells_iff.mp spelled
  rw [Nat.toString_eq_ofList_toDigits, ← reached, ← ofDigitChars_dropWhile, bare]
  cases kept : (unsigned word.toList).dropWhile (· = '0') with
  | nil => rfl
  | cons c rest =>
      have led : c ≠ '0' := by
        have other := List.head?_dropWhile_not (· = '0') (unsigned word.toList)
        simpa [kept] using other
      have keptDigits : ∀ d ∈ c :: rest, d.isDigit = true := by
        rw [← kept]
        exact fun d listed => allDigits d (List.dropWhile_subset _ listed)
      rw [toDigits_ofDigitChars led keptDigits]

/-- A number in bounds is spelled by its decimal digits. -/
theorem spells_toString {n : Nat} (small : n < bound) : Spells (toString n) n := by
  have written : (toString n).toList = Nat.toDigits 10 n := by
    rw [Nat.toString_eq_repr, Nat.toList_repr]
  refine ⟨_, .inl written, Nat.toDigits_ne_nil, fun c => ?_, ?_, small⟩
  · exact Nat.isDigit_of_mem_toDigits (by decide) (by decide)
  · exact Nat.ofDigitChars_ten_toDigits

end Numeral

/-- A word is a label exactly when it spells a number in bounds, and it is the label of this number.
A label is read back from its digits, and its digits are those of the word it was read from. A word
that is no label is named, and the cause is the fault of its digits. -/
theorem Label.read_as_spelled :
    (∀ (word : String) (b : Label), Role.label.read word = .ok b ↔ Numeral.Spells word b) ∧
      (∀ b : Label, b < Numeral.bound → Role.label.read (toString b) = .ok b) ∧
      (∀ (word : String) (b : Label), Role.label.read word = .ok b →
        toString b = Numeral.bare word) ∧
      ∀ (word : String) (bad : BadWord), Role.label.read word = .error bad ↔
        bad.role = .label ∧ bad.word = word ∧ Numeral.Fails word bad.cause :=
  ⟨fun _ _ => Role.read_eq_ok, fun _ small => Role.read_eq_ok.mpr (Numeral.spells_toString small),
    fun _ _ read => Numeral.toString_of_spells (Role.read_eq_ok.mp read),
    fun _ _ => Role.read_eq_error⟩

/-- The largest label may have a sign and zeros in front of it. A word that gets too large has its
fault before the letter behind it, and the largest number has its fault at this letter. -/
theorem Label.largest_is_read_back :
    let word := "+0018446744073709551615"
    let largest : Label := 18446744073709551615
    let large : BadWord := ⟨.label, "184467440737095516150x", .tooLarge⟩
    let strange : BadWord := ⟨.label, "18446744073709551615x", .invalidDigit⟩
    let lone : BadWord := ⟨.label, "+", .invalidDigit⟩
    (Role.label.read word = .ok largest ∧ toString largest = Numeral.bare word ∧
        Numeral.bare word = "18446744073709551615" ∧
        Role.label.read (toString largest) = .ok largest) ∧
      ∀ bad ∈ [large, strange, lone],
        Role.label.read bad.word = .error bad ∧ Numeral.Fails bad.word bad.cause := by
  intro word largest large strange lone
  obtain ⟨_, readBack, rewritten, failed⟩ := Label.read_as_spelled
  have accepted : Role.label.read word = .ok largest := by decide
  have refused : ∀ bad ∈ [large, strange, lone], Role.label.read bad.word = .error bad := by decide
  exact ⟨⟨accepted, rewritten word largest accepted, by decide, readBack largest (by decide)⟩,
    fun bad listed => ⟨refused bad listed, ((failed bad.word bad).mp (refused bad listed)).2.2⟩⟩

end Switchyard
