import Switchyard.Numeral

namespace Switchyard

/-- A number stands for a block, for a position in a table, or for the size of a graph. -/
inductive Role where
  | label
  | index
  | count
deriving DecidableEq, Repr

def Role.name : Role → String
  | .label => "block label"
  | .index => "index"
  | .count => "block count"

/-- A word that is no number is named together with the role that it was read for. -/
structure BadWord where
  role : Role
  word : String
  cause : Numeral.Fault
deriving DecidableEq, Repr

def BadWord.message (bad : BadWord) : String :=
  "invalid " ++ bad.role.name ++ " `" ++ bad.word ++ "': " ++ bad.cause.message

def Role.read (role : Role) (word : String) : Except BadWord Nat :=
  (Numeral.read word).mapError fun cause => ⟨role, word, cause⟩

end Switchyard
