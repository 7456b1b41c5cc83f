import Switchyard.Json
import Switchyard.Proofs.Text.Discern
import Mathlib.Data.List.Basic

namespace Switchyard.Json

open Text

/-- A quoted word ends at the first quotation mark. -/
def Unquoted (word : String) : Prop := ∀ c ∈ word.toList, (c != '"') = true

/-- All names in the document are free of quotation marks. -/
inductive Plain : Json → Prop where
  | null : Plain .null
  | number (value : Nat) : Plain (.number value)
  | name {word : String} (unquoted : Unquoted word) : Plain (.name word)
  | list {items : List Json} (plain : ∀ item ∈ items, Plain item) : Plain (.list items)
  | record {fields : List (String × Json)} (unquoted : ∀ field ∈ fields, Unquoted field.1)
      (plain : ∀ field ∈ fields, Plain field.2) : Plain (.record fields)

/-- A list of plain documents is plain. -/
theorem plain_list_map {α : Type} {write : α → Json} (plain : ∀ a, (write a).Plain)
    (items : List α) : (Json.list (items.map write)).Plain := by
  apply Plain.list
  intro item present
  obtain ⟨a, _, rfl⟩ := List.mem_map.mp present
  exact plain a

/-- Lists of documents differ where their items do. -/
theorem list_map_inj {α : Type} {write : α → Json} (injective : Function.Injective write)
    {items others : List α} :
    Json.list (items.map write) = Json.list (others.map write) ↔ items = others := by
  rw [list.injEq, (List.map_injective_iff.mpr injective).eq_iff]

/-- A document is told by its first character, where all digits are one. -/
def kind : Json → Char
  | .null => 'n'
  | .number _ => '0'
  | .name _ => '"'
  | .list _ => '['
  | .record _ => '\x7b'

/-- Items are laid out one by one. -/
theorem layoutItems_eq (depth : Nat) (items : List Json) :
    layoutItems depth items = items.map (layout depth) := by
  induction items with
  | nil => rfl
  | cons item rest ih => rw [layoutItems, ih, List.map_cons]

/-- A field is its quoted key and then the layout of its value. -/
def layoutField (depth : Nat) (field : String × Json) : String :=
  quote field.1 ++ ": " ++ layout depth field.2

/-- Fields are laid out one by one. -/
theorem layoutFields_eq (depth : Nat) (fields : List (String × Json)) :
    layoutFields depth fields = fields.map (layoutField depth) := by
  induction fields with
  | nil => rfl
  | cons field rest ih =>
      obtain ⟨key, value⟩ := field
      rw [layoutFields, ih, List.map_cons]
      rfl

/-- Entries are laid out between fresh lines. -/
theorem enclose_cons (opening closing : String) (depth : Nat) (entry : String)
    (rest : List String) :
    enclose opening closing depth (entry :: rest) =
      opening ++ (freshLine (depth + 1) ++
        (("," ++ freshLine (depth + 1)).intercalate (entry :: rest) ++
          (freshLine depth ++ closing))) := by
  simp only [enclose, String.append_assoc]

/-- The opening comes first, whether there are entries or not. -/
theorem enclose_opens (opening closing : String) (depth : Nat) (entries : List String) :
    ∃ rest, enclose opening closing depth entries = opening ++ rest := by
  cases entries with
  | nil => exact ⟨closing, rfl⟩
  | cons entry rest => exact ⟨_, enclose_cons opening closing depth entry rest⟩

/-- The first character of a layout tells the kind of the document. -/
theorem kind_layout (depth : Nat) (document : Json) (rest : String) :
    (document.layout depth ++ rest).toList.head?.map (fun c => if c.isDigit then '0' else c) =
      some document.kind := by
  cases document with
  | null => simp [layout, kind]
  | number value =>
      obtain ⟨c, first, digit⟩ := number_opens value rest
      rw [layout, first, Option.map_some, if_pos digit, kind]
  | name word => simp [layout, quote, kind]
  | list items =>
      obtain ⟨behind, opened⟩ := enclose_opens "[" "]" depth (layoutItems (depth + 1) items)
      simp [layout, opened, kind]
  | record fields =>
      obtain ⟨behind, opened⟩ :=
        enclose_opens "\x7b" "\x7d" depth (layoutFields (depth + 1) fields)
      simp [layout, opened, kind]

/-- Documents with the same layout are of one kind. -/
theorem kind_eq {depth : Nat} {a b : Json} {s t : String}
    (same : a.layout depth ++ s = b.layout depth ++ t) : a.kind = b.kind := by
  have left := kind_layout depth a s
  rw [same, kind_layout] at left
  exact (Option.some.inj left).symm

/-- No document starts with a line break. -/
theorem visible_layout (depth : Nat) (document : Json) (rest : String) :
    OpensWithout (· == '\n') (document.layout depth ++ rest) := by
  intro c first
  have told := kind_layout depth document rest
  rw [Option.mem_def.mp first, Option.map_some, Option.some.injEq] at told
  by_contra broken
  obtain rfl : c = '\n' := by simpa using broken
  cases document <;> simp [kind] at told

/-- A quoted word ends at its second quote. -/
theorem discerns_quote {word other : String} (left : Unquoted word) (right : Unquoted other) :
    Discerns quote (fun _ => True) word other := by
  intro s t _ _ same
  simp only [quote, String.append_assoc, String.append_right_inj] at same
  exact (discerns_run left right).marked (by simp [OpensWithout]) same

/-- A field is told by its key and its value. -/
theorem discerns_layoutField {depth : Nat} {field other : String × Json}
    (left : Unquoted field.1) (right : Unquoted other.1)
    (told : Discerns (layout depth) (OpensWithout Char.isDigit) field.2 other.2) :
    Discerns (layoutField depth) (OpensWithout Char.isDigit) field other := by
  intro s t closed closedToo same
  simp only [layoutField, String.append_assoc] at same
  obtain ⟨keys, later⟩ := discerns_quote left right _ _ trivial trivial same
  obtain ⟨values, rest⟩ := told s t closed closedToo ((String.append_right_inj ": ").mp later)
  exact ⟨Prod.ext keys values, rest⟩

section Enclosed

variable {α : Type} {write : α → String} {items others : List α} {closing : String}

/-- An entry ends in front of the comma or the fresh line behind it. -/
theorem endsParted_freshLine (visible : ∀ a rest, OpensWithout (· == '\n') (write a ++ rest))
    (depth : Nat) (s : String) :
    EndsParted write (OpensWithout Char.isDigit) ("," ++ freshLine (depth + 1))
      (freshLine depth ++ s) where
  behind := by simp [OpensWithout, freshLine]
  apart a rest same := by
    have first := visible a rest
    rw [same] at first
    simp [OpensWithout, freshLine] at first
  parted := by simp [← String.toList_inj, freshLine]

/-- Entries are told apart, and so is an empty pair of brackets. -/
theorem discerns_enclose (opening : String) (depth : Nat)
    (told : ∀ a ∈ items, ∀ b ∈ others, Discerns write (OpensWithout Char.isDigit) a b)
    (visible : ∀ a rest, OpensWithout (· == '\n') (write a ++ rest))
    (closed : ∀ rest, OpensWithout (· == '\n') (closing ++ rest)) :
    Discerns (fun list => enclose opening closing depth (list.map write)) (fun _ => True)
      items others := by
  -- Behind the opening bracket there is a line feed, unless there are no entries.
  have filled (a : α) (list : List α) (s t : String) :
      enclose opening closing depth ((a :: list).map write) ++ s ≠
        enclose opening closing depth (([] : List α).map write) ++ t := by
    intro same
    have first := closed t
    simp only [List.map_cons, List.map_nil, enclose, String.append_assoc,
      String.append_right_inj] at same
    rw [← same] at first
    simp [OpensWithout, freshLine] at first
  intro s t _ _ same
  cases items with
  | nil =>
      cases others with
      | nil => exact ⟨rfl, (String.append_right_inj _).mp same⟩
      | cons b others => exact absurd same.symm (filled b others t s)
  | cons a items =>
      cases others with
      | nil => exact absurd same (filled a items s t)
      | cons b others =>
          simp only [List.map_cons, enclose_cons, String.append_assoc,
            String.append_right_inj] at same
          obtain ⟨entries, later⟩ := discerns_intercalate told
            (fun rest => by simp [OpensWithout]) _ _
            (endsParted_freshLine visible depth _) (endsParted_freshLine visible depth _)
            (by simpa only [List.map_cons, String.append_assoc] using same)
          exact ⟨entries, by simpa only [String.append_right_inj] using later⟩

end Enclosed

/-- The induction is on the left document, and its parts are told from all plain documents. -/
theorem Plain.discerns {a b : Json} (left : a.Plain) (right : b.Plain) (depth : Nat) :
    Discerns (layout depth) (OpensWithout Char.isDigit) a b := by
  -- The first characters settle the kind, so the other document is of the same kind in each case.
  induction left generalizing b depth with
  | null =>
      intro s t _ _ same
      have kinds := kind_eq same
      cases right with
      | null => exact ⟨rfl, (String.append_right_inj "null").mp same⟩
      | _ => simp [kind] at kinds
  | number m =>
      intro s t closed closedToo same
      have kinds := kind_eq same
      cases right with
      | number n =>
          obtain ⟨rfl, rest⟩ := discerns_number m n s t closed closedToo same
          exact ⟨rfl, rest⟩
      | _ => simp [kind] at kinds
  | name unquoted =>
      intro s t _ _ same
      have kinds := kind_eq same
      cases right with
      | name unquotedToo =>
          obtain ⟨rfl, rest⟩ := discerns_quote unquoted unquotedToo s t trivial trivial same
          exact ⟨rfl, rest⟩
      | _ => simp [kind] at kinds
  | list _ told =>
      intro s t _ _ same
      have kinds := kind_eq same
      cases right with
      | list plain =>
          simp only [layout, layoutItems_eq] at same
          obtain ⟨rfl, rest⟩ := discerns_enclose "[" depth
            (fun item here other there => told item here (plain other there) (depth + 1))
            (visible_layout (depth + 1)) (by simp [OpensWithout]) s t trivial trivial same
          exact ⟨rfl, rest⟩
      | _ => simp [kind] at kinds
  | record unquoted _ told =>
      intro s t _ _ same
      have kinds := kind_eq same
      cases right with
      | record unquotedToo plain =>
          simp only [layout, layoutFields_eq] at same
          obtain ⟨rfl, rest⟩ := discerns_enclose "\x7b" depth
            (fun field here other there => discerns_layoutField (unquoted field here)
              (unquotedToo other there) (told field here (plain other there) (depth + 1)))
            (fun _ _ => by simp [OpensWithout, layoutField, quote]) (by simp [OpensWithout])
            s t trivial trivial same
          exact ⟨rfl, rest⟩
      | _ => simp [kind] at kinds

/-- Plain documents with the same layout are equal. -/
theorem Plain.eq_of_render {a b : Json} (left : a.Plain) (right : b.Plain)
    (same : a.render = b.render) : a = b := by
  have nothing : OpensWithout Char.isDigit "" := fun c first => by cases first
  exact (left.discerns right 0 "" "" nothing nothing (congrArg (· ++ "") same)).1

end Switchyard.Json
