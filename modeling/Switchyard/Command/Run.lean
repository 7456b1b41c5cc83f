import Switchyard.Command.Host
import Switchyard.Command.Options
import Switchyard.Graph.Audit
import Switchyard.Graph.Description
import Switchyard.Graph.Drawing
import Switchyard.Report.Document
import Switchyard.Report.Text

namespace Switchyard.Command

/-- Why a run ends without a text. Each cause is named with the file that it concerns. -/
inductive Failure where
  | openInput (path : String) (cause : SystemError)
  | readInput (path : String) (cause : SystemError)
  | notText (path : String)
  | graph (path : String) (cause : DescriptionFault)
  | script (path : String) (cause : ScriptFault)
  | edit (cause : RunFault)
  | audit (cause : Fault)
  | openOutput (path : String) (cause : SystemError)
  | writeOutput (path : String) (cause : SystemError)
deriving DecidableEq, Repr

def Failure.message : Failure → String
  | .openInput path cause => "Could not open input file `" ++ path ++ "': " ++ cause.message
  | .readInput path cause => "Could not read input file `" ++ path ++ "': " ++ cause.message
  | .notText path =>
      "Could not read input file `" ++ path ++ "': stream did not contain valid UTF-8"
  | .graph path cause => "Could not parse graph `" ++ path ++ "': " ++ cause.message
  | .script path cause => "Could not parse script `" ++ path ++ "': " ++ cause.message
  | .edit cause => cause.message
  | .audit cause => "Predecessor accounting diverged: " ++ cause.message
  | .openOutput path cause => "Could not open output file `" ++ path ++ "': " ++ cause.message
  | .writeOutput path cause => "Could not write output file `" ++ path ++ "': " ++ cause.message

/-- The input has two names. -/
def isInputStream (path : String) : Bool := path == "-" || path == "/dev/stdin"

/-- The output has two names. -/
def isOutputStream (path : String) : Bool := path == "-" || path == "/dev/stdout"

/-- A drawing stands in a graph of its own. -/
def drawingText (g : Graph) : String :=
  "digraph \x7b\n" ++ g.drawing "cfg" ++ "\n\x7d\n"

/-- A drawing takes the place of a report. -/
def Options.render (options : Options) (g : Graph) (edits : List Applied) : String :=
  if options.dot then drawingText g
  else match options.format with
    | .text => (Report.ofGraph g edits).toText
    | .json => (Report.ofGraph g edits).toJson.render ++ "\n"

/-- The script runs on the graph, and its failure ends the run. -/
def runScript (script : Script) (g : Graph) : Except Failure (List Applied × Graph) :=
  match script.run g with
  | .ok applied g => .ok (applied, g)
  | .error cause _ => .error (.edit cause)

def readGraph (path text : String) : Except Failure Graph :=
  (Graph.read text).mapError (.graph path)

def readScript (path text : String) : Except Failure Script :=
  (Script.read text).mapError (.script path)

section Hosted

variable {m : Type → Type} [Monad m]

/-- A file that cannot be opened differs from one that cannot be read. -/
def readBytes (host : Host m) (path : String) : ExceptT Failure m ByteArray := do
  if isInputStream path then
    match ← host.input with
    | .ok bytes => return bytes
    | .error cause => throw (.readInput path cause)
  else
    match ← host.load path with
    | .ok bytes => return bytes
    | .error (.opening cause) => throw (.openInput path cause)
    | .error (.moving cause) => throw (.readInput path cause)

/-- Inputs are texts in UTF-8. -/
def readText (host : Host m) (path : String) : ExceptT Failure m String := do
  match String.fromUTF8? (← readBytes host path) with
  | some text => return text
  | none => throw (.notText path)

/-- The output is opened behind all that can fail without it. -/
def writeText (host : Host m) (path text : String) : ExceptT Failure m Unit := do
  if isOutputStream path then
    match ← host.print text with
    | .ok _ => return ()
    | .error cause => throw (.writeOutput path cause)
  else
    match ← host.save path text with
    | .ok _ => return ()
    | .error (.opening cause) => throw (.openOutput path cause)
    | .error (.moving cause) => throw (.writeOutput path cause)

/-- Without a script the graph is reported as it was read. -/
def loadAndEdit (host : Host m) (options : Options) :
    ExceptT Failure m (List Applied × Graph) := do
  let g ← liftExcept (readGraph options.graph (← readText host options.graph))
  match options.script with
  | none => return ([], g)
  | some path =>
      let script ← liftExcept (readScript path (← readText host path))
      liftExcept (runScript script g)

/-- Both inputs are read and every other failure is decided before the output is opened. So the
output may be one of the inputs. -/
def run (host : Host m) (options : Options) : ExceptT Failure m Unit := do
  let (edits, g) ← loadAndEdit host options
  liftExcept (g.audit.mapError Failure.audit)
  writeText host options.output (options.render g edits)

end Hosted

end Switchyard.Command
