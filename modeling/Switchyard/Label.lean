namespace Switchyard

/-- A block is named by its position in the graph. -/
abbrev Label := Nat

/-- Diagnostics mark a label with a leading N. -/
def Label.tag (b : Label) : String := "N" ++ toString b

/-- An absent label is written out as a word. -/
def Label.orNone : Option Label → String
  | none => "none"
  | some b => toString b

/-- Diagnostics wrap a label that may be absent. -/
def Label.tagOption : Option Label → String
  | none => "None"
  | some b => "Some(" ++ Label.tag b ++ ")"

/-- Diagnostics list labels between square brackets. -/
def Label.tagList (labels : List Label) : String :=
  "[" ++ ", ".intercalate (labels.map Label.tag) ++ "]"

end Switchyard
