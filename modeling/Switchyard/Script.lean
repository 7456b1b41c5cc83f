import Switchyard.Edit.Line
import Switchyard.Text.Line

namespace Switchyard

/-- A script is a list of edits that run in order until one fails. -/
abbrev Script := List Edit

/-- The first line that is no edit. -/
structure ScriptFault where
  line : Nat
  cause : EditFault
deriving DecidableEq, Repr

def ScriptFault.message (fault : ScriptFault) : String :=
  Text.Line.label fault.line ++ ": " ++ fault.cause.message

/-- The first edit that failed. -/
structure RunFault where
  edit : Edit
  cause : Fault
deriving DecidableEq, Repr

def RunFault.message (fault : RunFault) : String :=
  "edit `" ++ fault.edit.render ++ "' failed: " ++ fault.cause.account

/-- An edit together with the changes that it made. -/
structure Applied where
  edit : Edit
  changes : List Change
deriving DecidableEq, Repr

namespace Script

def readLine (line : Text.Line) : Except ScriptFault Edit :=
  (Edit.read line.text).mapError fun cause => ⟨line.number, cause⟩

/-- A text has one edit on each line that says something. -/
def read (text : String) : Except ScriptFault Script :=
  (Text.significant text).mapM readLine

/-- A failure is named together with its edit. -/
def runEdit (edit : Edit) : EStateM RunFault Graph Applied :=
  EStateM.adaptExcept (⟨edit, ·⟩) do return ⟨edit, ← edit.apply⟩

/-- Edits before the failing one stay applied, and edits behind it do not run. -/
def run (script : Script) : EStateM RunFault Graph (List Applied) :=
  script.mapM runEdit

end Script

end Switchyard
