import Switchyard.Numeral

namespace Switchyard.Numeral

/-- The sign is optional, a digit is not, and zeros in front do no harm. -/
def Spells (word : String) (value : Nat) : Prop :=
  ∃ digits : List Char, (word.toList = digits ∨ word.toList = '+' :: digits) ∧ digits ≠ [] ∧
    (∀ c ∈ digits, c.isDigit = true) ∧ Nat.ofDigitChars 10 digits 0 = value ∧ value < bound

theorem digit?_of_isDigit {c : Char} (digit : c.isDigit = true) :
    digit? c = some (c.toNat - '0'.toNat) := if_pos digit

theorem digit?_of_not_isDigit {c : Char} (other : ¬ c.isDigit = true) : digit? c = none :=
  if_neg other

/-- Digits never make the value smaller, so one that is too large stays too large. -/
theorem le_ofDigitChars (digits : List Char) (value : Nat) :
    value ≤ Nat.ofDigitChars 10 digits value := by
  induction digits generalizing value with
  | nil => simp
  | cons c rest ih =>
      rw [Nat.ofDigitChars_cons]
      have later := ih (10 * value + (c.toNat - '0'.toNat))
      omega

/-- The induction is on the digits that are left, and the value so far is in bounds. -/
theorem readDigits_eq_ok {digits : List Char} {sofar value : Nat} (small : sofar < bound) :
    readDigits sofar digits = .ok value ↔
      (∀ c ∈ digits, c.isDigit = true) ∧ Nat.ofDigitChars 10 digits sofar = value ∧
        value < bound := by
  induction digits generalizing sofar with
  | nil =>
      simp only [readDigits, Except.ok.injEq, List.not_mem_nil, false_implies, implies_true,
        Nat.ofDigitChars_nil, true_and]
      constructor
      · rintro rfl
        exact ⟨rfl, small⟩
      · exact And.left
  | cons c rest ih =>
      rw [readDigits, List.forall_mem_cons, Nat.ofDigitChars_cons]
      by_cases digit : c.isDigit = true
      · simp only [digit?_of_isDigit digit, digit, true_and]
        by_cases next : 10 * sofar + (c.toNat - '0'.toNat) < bound
        · rw [if_pos next]
          exact ih next
        · rw [if_neg next]
          have larger := le_ofDigitChars rest (10 * sofar + (c.toNat - '0'.toNat))
          constructor
          · rintro ⟨⟩
          · rintro ⟨_, reached, inBounds⟩
            omega
      · simp [digit?_of_not_isDigit digit, digit]

/-- A plus sign in front of a word is none of its digits. -/
def unsigned : List Char → List Char
  | '+' :: digits => digits
  | digits => digits

theorem unsigned_eq_nil {chars : List Char} :
    unsigned chars = [] ↔ chars = [] ∨ chars = ['+'] := by
  unfold unsigned
  split <;> simp_all

/-- A digit is no sign. -/
theorem unsigned_of_digit {c : Char} {rest : List Char} (digit : c.isDigit = true) :
    unsigned (c :: rest) = c :: rest := by
  unfold unsigned
  split
  · next opened =>
    cases opened
    exact absurd digit (by decide)
  · rfl

/-- What is dropped in front of the digits is a plus sign at most. -/
theorem eq_unsigned (chars : List Char) :
    chars = unsigned chars ∨ chars = '+' :: unsigned chars := by
  unfold unsigned
  split
  · exact .inr rfl
  · exact .inl rfl

/-- The sign is no digit, so a word cannot be taken apart in two ways. -/
theorem spells_iff {word : String} {value : Nat} :
    Spells word value ↔ unsigned word.toList ≠ [] ∧
      (∀ c ∈ unsigned word.toList, c.isDigit = true) ∧
      Nat.ofDigitChars 10 (unsigned word.toList) 0 = value ∧ value < bound := by
  constructor
  · rintro ⟨digits, plain | signed, present, allDigits, reached⟩
    · obtain ⟨c, rest, rfl⟩ := List.exists_cons_of_ne_nil present
      rw [plain, unsigned_of_digit (allDigits c List.mem_cons_self)]
      exact ⟨present, allDigits, reached⟩
    · rw [signed]
      exact ⟨present, allDigits, reached⟩
  · exact fun spelled => ⟨unsigned word.toList, eq_unsigned word.toList, spelled⟩

/-- Behind the sign all is left to the digits. -/
theorem read_of_unsigned {word : String} (present : unsigned word.toList ≠ []) :
    read word = readDigits 0 (unsigned word.toList) := by
  obtain ⟨nonempty, lone⟩ := not_or.mp (mt unsigned_eq_nil.mpr present)
  unfold read readChars unsigned
  split <;> simp_all

/-- Without digits the word is empty or nothing but a sign. -/
theorem read_of_unsigned_nil {word : String} (absent : unsigned word.toList = []) :
    read word = .error (if word = "" then .empty else .invalidDigit) := by
  rcases unsigned_eq_nil.mp absent with nothing | lone
  · simp [read, ← String.toList_eq_nil_iff, nothing, readChars]
  · simp [read, ← String.toList_eq_nil_iff, lone, readChars]

/-- The words that are read are the ones that spell a number. -/
theorem read_eq_ok {word : String} {value : Nat} : read word = .ok value ↔ Spells word value := by
  rw [spells_iff]
  by_cases present : unsigned word.toList = []
  · simp [read_of_unsigned_nil present, present]
  · rw [read_of_unsigned present, readDigits_eq_ok (by decide), and_iff_right present]

/-- The value stays in bounds up to some digit, and with this digit it does not. -/
def Overruns (sofar : Nat) (digits : List Char) : Prop :=
  ∃ front c back, digits = front ++ c :: back ∧ (∀ d ∈ front ++ [c], d.isDigit = true) ∧
    Nat.ofDigitChars 10 front sofar < bound ∧ bound ≤ Nat.ofDigitChars 10 (front ++ [c]) sofar

theorem overruns_nil {sofar : Nat} : ¬ Overruns sofar [] := by
  rintro ⟨front, c, back, split, _⟩
  simp at split

/-- A value overruns at this digit or at a later one. -/
theorem overruns_cons {c : Char} {rest : List Char} {sofar : Nat} (small : sofar < bound) :
    Overruns sofar (c :: rest) ↔ c.isDigit = true ∧
      (bound ≤ 10 * sofar + (c.toNat - '0'.toNat) ∨
        10 * sofar + (c.toNat - '0'.toNat) < bound ∧
          Overruns (10 * sofar + (c.toNat - '0'.toNat)) rest) := by
  constructor
  · rintro ⟨front, last, back, split, allDigits, inside, outside⟩
    rcases front with _ | ⟨first, front⟩
    · cases split
      refine ⟨allDigits c (by simp), .inl ?_⟩
      simpa [Nat.ofDigitChars_cons] using outside
    · cases split
      rw [List.cons_append, List.forall_mem_cons] at allDigits
      rw [List.cons_append, Nat.ofDigitChars_cons] at outside
      rw [Nat.ofDigitChars_cons] at inside
      have next := Nat.lt_of_le_of_lt (le_ofDigitChars front _) inside
      exact ⟨allDigits.1, .inr ⟨next, front, last, back, rfl, allDigits.2, inside, outside⟩⟩
  · rintro ⟨digit, outside | ⟨next, front, last, back, rfl, allDigits, inside, outside⟩⟩
    · refine ⟨[], c, rest, rfl, by simpa using digit, by simpa using small, ?_⟩
      simpa [Nat.ofDigitChars_cons] using outside
    · refine ⟨c :: front, last, back, rfl, ?_, ?_, ?_⟩
      · exact List.forall_mem_cons.mpr ⟨digit, allDigits⟩
      · rwa [Nat.ofDigitChars_cons]
      · rwa [List.cons_append, Nat.ofDigitChars_cons]

/-- The induction is on the digits that are left, and the value so far is in bounds. -/
theorem readDigits_eq_tooLarge {digits : List Char} {sofar : Nat} (small : sofar < bound) :
    readDigits sofar digits = .error .tooLarge ↔ Overruns sofar digits := by
  induction digits generalizing sofar with
  | nil => simp [readDigits, overruns_nil]
  | cons c rest ih =>
      rw [readDigits, overruns_cons small]
      by_cases digit : c.isDigit = true
      · simp only [digit?_of_isDigit digit, digit, true_and]
        by_cases next : 10 * sofar + (c.toNat - '0'.toNat) < bound
        · rw [if_pos next, ih next, or_iff_right (Nat.not_le.mpr next), and_iff_right next]
        · rw [if_neg next]
          exact iff_of_true rfl (.inl (Nat.not_lt.mp next))
      · simp [digit?_of_not_isDigit digit, digit]

/-- Digits are never missing once they are looked at. -/
theorem readDigits_ne_empty (sofar : Nat) (digits : List Char) :
    readDigits sofar digits ≠ .error .empty := by
  induction digits generalizing sofar with
  | nil => simp [readDigits]
  | cons c rest ih =>
      rw [readDigits]
      split
      · simp
      · split
        · exact ih _
        · simp

/-- A value is too large when the digits in front of all other characters overrun. -/
theorem read_eq_tooLarge {word : String} :
    read word = .error .tooLarge ↔ Overruns 0 (unsigned word.toList) := by
  by_cases present : unsigned word.toList = []
  · rw [read_of_unsigned_nil present, present]
    refine iff_of_false ?_ overruns_nil
    split <;> simp
  · rw [read_of_unsigned present, readDigits_eq_tooLarge (by decide)]

/-- Only the empty word is empty. -/
theorem read_eq_empty {word : String} : read word = .error .empty ↔ word = "" := by
  by_cases present : unsigned word.toList = []
  · rw [read_of_unsigned_nil present]
    split <;> simp_all
  · rw [read_of_unsigned present]
    refine iff_of_false (readDigits_ne_empty _ _) ?_
    rintro rfl
    exact present rfl

/-- The causes exclude each other, and one of them holds of each word that spells no number. -/
inductive Fails (word : String) : Fault → Prop where
  | empty (nothing : word = "") : Fails word .empty
  | tooLarge (overruns : Overruns 0 (unsigned word.toList)) : Fails word .tooLarge
  | invalidDigit (present : word ≠ "") (apart : ∀ value, ¬ Spells word value)
      (inBounds : ¬ Overruns 0 (unsigned word.toList)) : Fails word .invalidDigit

/-- A lone sign fails like a word with a character that is no digit. -/
theorem read_eq_error {word : String} {cause : Fault} :
    read word = .error cause ↔ Fails word cause := by
  constructor
  · intro failed
    cases cause with
    | empty => exact .empty (read_eq_empty.mp failed)
    | tooLarge => exact .tooLarge (read_eq_tooLarge.mp failed)
    | invalidDigit =>
        refine .invalidDigit (fun nothing => ?_) (fun value spelled => ?_) (fun overruns => ?_)
        · simp [read_eq_empty.mpr nothing] at failed
        · simp [read_eq_ok.mpr spelled] at failed
        · simp [read_eq_tooLarge.mpr overruns] at failed
  · rintro (nothing | overruns | ⟨present, apart, inBounds⟩)
    · exact read_eq_empty.mpr nothing
    · exact read_eq_tooLarge.mpr overruns
    · cases result : read word with
      | ok value => exact absurd (read_eq_ok.mp result) (apart value)
      | error other =>
          cases other with
          | empty => exact absurd (read_eq_empty.mp result) present
          | tooLarge => exact absurd (read_eq_tooLarge.mp result) inBounds
          | invalidDigit => rfl

end Switchyard.Numeral
