import Switchyard.Edit.Basic
import Switchyard.Text.Blank
import Switchyard.Word

namespace Switchyard

namespace Action

def keyword : Action → String
  | .push _ => "push"
  | .insert _ _ => "insert"
  | .set _ _ => "set"
  | .removeAt _ => "remove-at"
  | .remove _ => "remove"
  | .clear => "clear"

def index? : Action → Option Nat
  | .insert index _ | .set index _ | .removeAt index => some index
  | .push _ | .remove _ | .clear => none

def target? : Action → Option Label
  | .push target | .insert _ target | .set _ target | .remove target => some target
  | .removeAt _ | .clear => none

/-- Diagnostics capitalize each word of the keyword. -/
def debugName : Action → String
  | .push _ => "Push"
  | .insert _ _ => "Insert"
  | .set _ _ => "Set"
  | .removeAt _ => "RemoveAt"
  | .remove _ => "Remove"
  | .clear => "Clear"

end Action

/-- A line is no edit. -/
inductive EditFault where
  | badWord (bad : BadWord)
  | unrecognized (line : String)
deriving DecidableEq, Repr

def EditFault.message : EditFault → String
  | .badWord bad => bad.message
  | .unrecognized line => "unrecognized edit `" ++ line ++ "'"

namespace Edit

/-- A line holds the keyword of the action, the owner, and then the action's own numbers, an index
before a target. -/
def render (edit : Edit) : String :=
  " ".intercalate (edit.action.keyword :: toString edit.owner ::
    (edit.action.index?.toList ++ edit.action.target?.toList).map toString)

def debug (edit : Edit) : String :=
  let fields := ["owner: " ++ Label.tag edit.owner] ++
    (edit.action.index?.toList.map fun index => "index: " ++ toString index) ++
    (edit.action.target?.toList.map fun target => "target: " ++ Label.tag target)
  edit.action.debugName ++ " \x7b " ++ ", ".intercalate fields ++ " \x7d"

/-- A number is read for its role, and a bad one makes the line bad. -/
def readNumber (role : Role) (word : String) : Except EditFault Nat :=
  (role.read word).mapError .badWord

/-- The numbers of a line are read from the left. -/
def read (line : String) : Except EditFault Edit :=
  match Text.words line with
  | ["push", owner, target] =>
      return ⟨← readNumber .label owner, .push (← readNumber .label target)⟩
  | ["insert", owner, index, target] =>
      return ⟨← readNumber .label owner,
        .insert (← readNumber .index index) (← readNumber .label target)⟩
  | ["set", owner, index, target] =>
      return ⟨← readNumber .label owner,
        .set (← readNumber .index index) (← readNumber .label target)⟩
  | ["remove-at", owner, index] =>
      return ⟨← readNumber .label owner, .removeAt (← readNumber .index index)⟩
  | ["remove", owner, target] =>
      return ⟨← readNumber .label owner, .remove (← readNumber .label target)⟩
  | ["clear", owner] => return ⟨← readNumber .label owner, .clear⟩
  | _ => .error (.unrecognized line)

end Edit

end Switchyard
