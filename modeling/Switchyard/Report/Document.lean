import Switchyard.Json
import Switchyard.Report.Basic

namespace Switchyard

/-- An edit shows its keyword first and then only the numbers that it has. -/
def Edit.toJson (edit : Edit) : Json :=
  .record ([("op", .name edit.action.keyword), ("owner", .number edit.owner)] ++
    (edit.action.index?.toList.map fun index => ("index", .number index)) ++
    (edit.action.target?.toList.map fun target => ("target", .number target)))

/-- Both sides of a change are shown, also when they are absent. -/
def Change.toJson (change : Change) : Json :=
  .record [("owner", .number change.owner), ("old", .ofLabel? change.old),
    ("new", .ofLabel? change.new)]

def Applied.toJson (applied : Applied) : Json :=
  .record [("edit", applied.edit.toJson),
    ("notifications", .list (applied.changes.map Change.toJson))]

namespace Report

def switchJson (b : Label) (targets : List Label) : Json :=
  .record [("block", .number b), ("targets", .list (targets.map .number))]

/-- A predecessor and its number of edges are a list of two. -/
def predecessorsJson (b : Label) (sources : List (Label × Nat)) : Json :=
  .record [("block", .number b),
    ("predecessors", .list (sources.map fun (source, n) => .list [.number source, .number n]))]

/-- The document has a field for each part of the report. -/
def toJson (report : Report) : Json :=
  .record [("edits", .list (report.edits.map Applied.toJson)),
    ("switches", .list (report.switches.map fun (b, targets) => switchJson b targets)),
    ("predecessors",
      .list (report.predecessors.map fun (b, sources) => predecessorsJson b sources))]

end Report

end Switchyard
