import Switchyard.Label

namespace Switchyard

/-- The state of a graph forbids what was asked of it. -/
inductive Violation where
  /-- The table has no owner. -/
  | unattached
  | alreadyAttached (owner : Label)
  /-- The graph has no such block. -/
  | notWired (block : Label)
  /-- The block does not end in a switch. -/
  | notSwitch (block : Label)
  | edgeMissing (source target : Label)
  /-- The tables and the predecessor counts disagree about an edge. -/
  | miscounted (source target : Label) (listed recorded : Nat)
deriving DecidableEq, Repr

def Violation.message : Violation → String
  | .unattached => "target list is not attached to an owning block"
  | .alreadyAttached b => "target list is already attached to block " ++ toString b
  | .notWired b => "block " ++ toString b ++ " is not wired into the graph"
  | .notSwitch b => "block " ++ toString b ++ " does not end in a switch"
  | .edgeMissing source target =>
      "no edge " ++ toString source ++ " -> " ++ toString target ++ " is recorded"
  | .miscounted source target listed recorded =>
      "edge " ++ toString source ++ " -> " ++ toString target ++ " occurs " ++ toString listed ++
        " time(s) but " ++ toString recorded ++ " recorded"

/-- Why an operation on a table or a graph fails. -/
inductive Fault where
  /-- There is no sequence to take targets from. -/
  | sourceAbsent
  | illegal (violation : Violation)
  | outOfRange (index length : Nat)
deriving DecidableEq, Repr

def Fault.message : Fault → String
  | .sourceAbsent => "target source sequence is absent"
  | .illegal v => "illegal state: " ++ v.message
  | .outOfRange index length =>
      "index " ++ toString index ++ " is out of range for " ++ toString length ++ " target(s)"

/-- The full account of a fault ends with its root cause, so an illegal state names its violation
twice. -/
def Fault.account : Fault → String
  | .illegal v => (Fault.illegal v).message ++ ": " ++ v.message
  | f => f.message

end Switchyard
