import Switchyard.Report.Basic

namespace Switchyard.Report

/-- Changes are indented under their edit. -/
def editLines (applied : Applied) : List String :=
  applied.edit.render :: applied.changes.map fun change => "  " ++ change.render

/-- Targets stand in the order of their cases. -/
def switchLine (b : Label) (targets : List Label) : String :=
  "  " ++ toString b ++ " -> [" ++ ", ".intercalate (targets.map toString) ++ "]"

/-- A predecessor is followed by its number of edges. -/
def predecessorsLine (b : Label) (sources : List (Label × Nat)) : String :=
  "  " ++ toString b ++ " <- " ++
    " ".intercalate (sources.map fun (source, n) => toString source ++ "x" ++ toString n)

/-- The edits come first, and an empty line ends them. The two tables follow under their headings.
-/
def textLines (report : Report) : List String :=
  report.edits.flatMap editLines ++
  (if report.edits.isEmpty then [] else [""]) ++
  "switches:" :: report.switches.map (fun (b, targets) => switchLine b targets) ++
  "predecessors:" :: report.predecessors.map (fun (b, sources) => predecessorsLine b sources)

/-- Every line is ended, also the last one. -/
def toText (report : Report) : String :=
  String.join (report.textLines.map (· ++ "\n"))

end Switchyard.Report
