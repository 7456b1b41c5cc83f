namespace Switchyard

/-- A document. Numbers are naturals. Names are plain words, so no character of theirs needs an
escape. -/
inductive Json where
  | null
  | number (value : Nat)
  | name (word : String)
  | list (items : List Json)
  | record (fields : List (String × Json))

namespace Json

/-- A label that is absent is null. -/
def ofLabel? : Option Nat → Json
  | none => .null
  | some b => .number b

def quote (word : String) : String := "\"" ++ word ++ "\""

/-- A fresh line starts with the indentation of its depth. -/
def freshLine (depth : Nat) : String := "\n" ++ String.ofList (List.replicate (2 * depth) ' ')

/-- Entries are separated by commas between a pair of brackets. -/
def enclose (opening closing : String) (depth : Nat) (entries : List String) : String :=
  match entries with
  | [] => opening ++ closing
  | _ => opening ++ freshLine (depth + 1) ++ ("," ++ freshLine (depth + 1)).intercalate entries ++
      freshLine depth ++ closing

mutual

/-- The layout of a document whose last line has the given depth. -/
def layout (depth : Nat) : Json → String
  | .null => "null"
  | .number value => toString value
  | .name word => quote word
  | .list items => enclose "[" "]" depth (layoutItems (depth + 1) items)
  | .record fields => enclose "\x7b" "\x7d" depth (layoutFields (depth + 1) fields)

def layoutItems (depth : Nat) : List Json → List String
  | [] => []
  | item :: rest => layout depth item :: layoutItems depth rest

def layoutFields (depth : Nat) : List (String × Json) → List String
  | [] => []
  | (key, value) :: rest => (quote key ++ ": " ++ layout depth value) :: layoutFields depth rest

end

def render (document : Json) : String := document.layout 0

end Json

end Switchyard
