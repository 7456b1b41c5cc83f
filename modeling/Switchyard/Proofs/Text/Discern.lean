import Mathlib.Data.List.TakeWhile
import Std.Data.String.ToNat

namespace Switchyard.Text

/-- The first character, if there is one, is not of this kind. -/
def OpensWithout (kind : Char → Bool) (text : String) : Prop :=
  ∀ c ∈ text.toList.head?, kind c = false

/-- A text that starts with the writing of `a` starts with the writing of `b` only if the two are the
same, and then the same stands behind them. -/
def Discerns {α : Type} (write : α → String) (before : String → Prop) (a b : α) : Prop :=
  ∀ s t, before s → before t → write a ++ s = write b ++ t → a = b ∧ s = t

/-- What stands behind a list is not taken for one item more. -/
structure Ends {α : Type} (write : α → String) (before : String → Prop) (text : String) : Prop where
  behind : before text
  apart : ∀ a rest, write a ++ rest ≠ text

variable {α : Type} {write : α → String} {before : String → Prop} {kind : Char → Bool}

/-- A word of one kind ends where the kind does. -/
theorem takeWhile_append {word rest : String} (inside : ∀ c ∈ word.toList, kind c = true)
    (closed : OpensWithout kind rest) : (word ++ rest).toList.takeWhile kind = word.toList := by
  have nothing : rest.toList.takeWhile kind = [] := by
    unfold OpensWithout at closed
    cases opened : rest.toList with
    | nil => rfl
    | cons c others =>
        have other : kind c = false := closed c (by rw [opened]; rfl)
        rw [List.takeWhile_cons_of_neg (Bool.eq_false_iff.mp other)]
  rw [String.toList_append, List.takeWhile_append_of_pos inside, nothing, List.append_nil]

/-- A run of characters of one kind ends where the kind does. -/
theorem discerns_run {a b : String} (left : ∀ c ∈ a.toList, kind c = true)
    (right : ∀ c ∈ b.toList, kind c = true) : Discerns id (OpensWithout kind) a b := by
  intro s t closed closedToo same
  simp only [id_eq] at same
  have runs : a.toList = b.toList := by
    rw [← takeWhile_append left closed, ← takeWhile_append right closedToo, same]
  obtain rfl := String.toList_inj.mp runs
  exact ⟨rfl, (String.append_right_inj a).mp same⟩

theorem isDigit_of_mem_toString {n : Nat} {c : Char} (digit : c ∈ (toString n).toList) :
    c.isDigit = true := by
  rw [Nat.toString_eq_repr, Nat.toList_repr] at digit
  exact Nat.isDigit_of_mem_toDigits (by decide) (by decide) digit

/-- Numbers have digits only, so no digit may stand behind them. -/
theorem discerns_number (a b : Nat) : Discerns toString (OpensWithout Char.isDigit) a b := by
  intro s t closed closedToo same
  obtain ⟨digits, rest⟩ := discerns_run (fun _ => isDigit_of_mem_toString)
    (fun _ => isDigit_of_mem_toString) s t closed closedToo same
  exact ⟨Nat.repr_injective digits, rest⟩

/-- A written number starts with a digit. -/
theorem number_opens (n : Nat) (rest : String) :
    ∃ c, (toString n ++ rest).toList.head? = some c ∧ c.isDigit = true := by
  obtain ⟨c, others, digits⟩ := List.exists_cons_of_ne_nil (Nat.toDigits_ne_nil (n := n) (b := 10))
  have written : (toString n).toList = c :: others := by
    rw [Nat.toString_eq_repr, Nat.toList_repr, digits]
  refine ⟨c, ?_, isDigit_of_mem_toString (written ▸ List.mem_cons_self)⟩
  rw [String.toList_append, written, List.cons_append, List.head?_cons]

theorem number_append_ne {s : String} (closed : OpensWithout Char.isDigit s) (n : Nat)
    (rest : String) : toString n ++ rest ≠ s := by
  rintro rfl
  obtain ⟨c, first, digit⟩ := number_opens n rest
  exact Bool.noConfusion (digit.symm.trans (closed c first))

/-- The same start makes no difference. -/
theorem Discerns.behind {a b : α} (told : Discerns write before a b) (start : String) :
    Discerns (start ++ write ·) before a b := by
  intro s t behind behindToo same
  simp only [String.append_assoc] at same
  exact told s t behind behindToo ((String.append_right_inj start).mp same)

/-- A part ends where a mark begins that cannot belong to it. -/
theorem Discerns.marked {a b : α} {mark s t : String}
    (told : Discerns write (OpensWithout kind) a b)
    (closed : ∀ rest, OpensWithout kind (mark ++ rest))
    (same : write a ++ (mark ++ s) = write b ++ (mark ++ t)) : a = b ∧ s = t := by
  obtain ⟨parts, later⟩ := told _ _ (closed s) (closed t) same
  exact ⟨parts, (String.append_right_inj mark).mp later⟩

/-- What may stand behind an item may start with further items. -/
theorem Ends.before_join {s : String} (ends : Ends write before s)
    (more : ∀ a rest, before (write a ++ rest)) (list : List α) :
    before (String.join (list.map write) ++ s) := by
  cases list with
  | nil => simpa using ends.behind
  | cons a rest => simpa [String.append_assoc] using more a _

/-- The items of a list are told apart one by one. The induction is on the first list. -/
theorem discerns_join {items others : List α}
    (told : ∀ a ∈ items, ∀ b ∈ others, Discerns write before a b)
    (more : ∀ a rest, before (write a ++ rest)) :
    Discerns (fun list => String.join (list.map write)) (Ends write before) items others := by
  intro s t ends endsToo same
  induction items generalizing others with
  | nil =>
      cases others with
      | nil => exact ⟨rfl, by simpa using same⟩
      | cons b others =>
          simp only [List.map_nil, List.map_cons, String.join_nil, String.join_cons,
            String.empty_append, String.append_assoc] at same
          exact absurd same.symm (ends.apart b _)
  | cons a items ih =>
      cases others with
      | nil =>
          simp only [List.map_nil, List.map_cons, String.join_nil, String.join_cons,
            String.empty_append, String.append_assoc] at same
          exact absurd same (endsToo.apart a _)
      | cons b others =>
          simp only [List.map_cons, String.join_cons, String.append_assoc] at same
          obtain ⟨rfl, later⟩ := told a List.mem_cons_self b List.mem_cons_self _ _
            (ends.before_join more items) (endsToo.before_join more others) same
          obtain ⟨rfl, rest⟩ := ih (fun x here y there =>
            told x (List.mem_cons_of_mem _ here) y (List.mem_cons_of_mem _ there)) later
          exact ⟨rfl, rest⟩

/-- Behind the first word each word has a separator in front. -/
theorem intercalate_cons (separator word : String) (words : List String) :
    separator.intercalate (word :: words) = word ++ String.join (words.map (separator ++ ·)) := by
  induction words generalizing word with
  | nil => simp
  | cons next words ih =>
      rw [String.intercalate_cons_cons, ih next, List.map_cons, String.join_cons,
        String.append_assoc, String.append_assoc]

/-- Behind a list with separators there is neither an item nor a separator. -/
structure EndsParted {α : Type} (write : α → String) (before : String → Prop)
    (separator text : String) : Prop extends Ends write before text where
  parted : ∀ rest, separator ++ rest ≠ text

/-- A text that ends a parted list ends its items. -/
theorem EndsParted.ends {separator s : String} (parted : EndsParted write before separator s) :
    Ends (separator ++ write ·) before s where
  behind := parted.behind
  apart a rest := by
    rw [String.append_assoc]
    exact parted.parted (write a ++ rest)

/-- A parted list is told by its items. -/
theorem discerns_intercalate {separator : String} {items others : List α}
    (told : ∀ a ∈ items, ∀ b ∈ others, Discerns write before a b)
    (more : ∀ rest, before (separator ++ rest)) :
    Discerns (fun list => separator.intercalate (list.map write))
      (EndsParted write before separator) items others := by
  have opens (a : α) (rest : String) : before (separator ++ write a ++ rest) := by
    rw [String.append_assoc]
    exact more (write a ++ rest)
  have parts (a : α) (list : List α) (s : String) :
      separator.intercalate ((a :: list).map write) ++ s =
        write a ++ (String.join (list.map (separator ++ write ·)) ++ s) := by
    rw [List.map_cons, intercalate_cons, List.map_map, String.append_assoc]
    rfl
  intro s t ends endsToo same
  cases items with
  | nil =>
      cases others with
      | nil => exact ⟨rfl, by simpa using same⟩
      | cons b others =>
          simp only [parts, List.map_nil, String.intercalate_nil, String.empty_append] at same
          exact absurd same.symm (ends.apart b _)
  | cons a items =>
      cases others with
      | nil =>
          simp only [parts, List.map_nil, String.intercalate_nil, String.empty_append] at same
          exact absurd same (endsToo.apart a _)
      | cons b others =>
          -- With a separator in front of it, the first item is like all others.
          have led : String.join ((a :: items).map (separator ++ write ·)) ++ s =
              String.join ((b :: others).map (separator ++ write ·)) ++ t := by
            simp only [List.map_cons, String.join_cons, String.append_assoc, ← parts]
            exact congrArg (separator ++ ·) same
          exact discerns_join (fun x here y there => (told x here y there).behind separator) opens
            s t ends.ends endsToo.ends led

end Switchyard.Text
