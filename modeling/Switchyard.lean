import Switchyard.Buffer
import Switchyard.Change
import Switchyard.Census
import Switchyard.Command.Host
import Switchyard.Command.LogLevel
import Switchyard.Command.Options
import Switchyard.Command.Outcome
import Switchyard.Command.Run
import Switchyard.Command.World
import Switchyard.Edge
import Switchyard.Edit.Basic
import Switchyard.Edit.Line
import Switchyard.Fault
import Switchyard.Graph.Audit
import Switchyard.Graph.Basic
import Switchyard.Graph.Description
import Switchyard.Graph.Drawing
import Switchyard.Graph.Update
import Switchyard.Json
import Switchyard.JumpTable.Basic
import Switchyard.JumpTable.Update
import Switchyard.Label
import Switchyard.Main
import Switchyard.Numeral
import Switchyard.Predecessors
import Switchyard.Report.Basic
import Switchyard.Report.Document
import Switchyard.Report.Text
import Switchyard.Script
import Switchyard.Tally
import Switchyard.Text.Blank
import Switchyard.Text.Line
import Switchyard.Word
import Switchyard.Proofs.JumpTable.Plan
import Switchyard.Proofs.JumpTable.Log
import Switchyard.Proofs.Edit.Plan
import Switchyard.Proofs.Predecessors.Record
import Switchyard.Proofs.JumpTable.Exchange
import Switchyard.Proofs.Predecessors.Conservation
import Switchyard.Proofs.Graph.Table
import Switchyard.Proofs.Graph.Growth
import Switchyard.Proofs.Graph.Reachable
import Switchyard.Proofs.Command.Audit
import Switchyard.Proofs.Graph.Drift
import Switchyard.Proofs.Predecessors.Consent
import Switchyard.Proofs.Edit.Lists
import Switchyard.Proofs.Script.Outline
import Switchyard.Proofs.Graph.Share
import Switchyard.Proofs.Script.Independence
import Switchyard.Proofs.JumpTable.Amendment
import Switchyard.Proofs.Script.Replay
import Switchyard.Proofs.Predecessors.Queries
import Switchyard.Proofs.Predecessors.Session
import Switchyard.Proofs.Numeral
import Switchyard.Proofs.Text.Rows
import Switchyard.Proofs.Text.Discern
import Switchyard.Proofs.Graph.Declaration
import Switchyard.Proofs.Reading
import Switchyard.Proofs.Graph.Description
import Switchyard.Proofs.Json
import Switchyard.Proofs.Report.Text
import Switchyard.Proofs.Report.Document
import Switchyard.Proofs.Graph.Drawing
import Switchyard.Proofs.Report.Transpose
import Switchyard.Proofs.JumpTable.Attachment
import Switchyard.Proofs.Script.Grammar
import Switchyard.Proofs.Script.Concatenation
import Switchyard.Proofs.Command.Safety
import Switchyard.Proofs.Layout
import Switchyard.Proofs.JumpTable.Stepwise
import Switchyard.Proofs.Graph.Recount
import Switchyard.Proofs.Graph.Attachment
import Switchyard.Proofs.Graph.Frame
import Switchyard.Proofs.Graph.Reversal
import Switchyard.Proofs.Script.Writing
import Switchyard.Proofs.Text.Lines
import Switchyard.Proofs.Script.Lines
import Switchyard.Proofs.JumpTable.Occurrence
import Switchyard.Proofs.JumpTable.Copy
import Switchyard.Proofs.Graph.Blame
import Switchyard.Proofs.Graph.Entries
import Switchyard.Proofs.Text.Marks
import Switchyard.Proofs.Graph.Degrees
import Switchyard.Proofs.Label
import Switchyard.Proofs.Text.Endings
