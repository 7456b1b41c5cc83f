import Switchyard.Command.Run

namespace Switchyard.Command

/-- How a call of the command ends. -/
inductive Outcome where
  | done
  | helped
  | misused (fault : UsageFault)
  | failed (failure : Failure)
deriving DecidableEq, Repr

namespace Outcome

/-- Failures of a run and faults of the call have codes of their own. -/
def exitCode : Outcome → UInt8
  | .done | .helped => 0
  | .failed _ => 1
  | .misused _ => 2

/-- What the user is told on the error stream. -/
def complaint? : Outcome → Option String
  | .done | .helped => none
  | .misused fault => some ("error: " ++ fault.message)
  | .failed failure => some failure.message

end Outcome

def versionText : String := "flowedit 0.1.0\n"

def helpText : String :=
  "Switch target editor for control-flow graphs\n\n" ++
  "USAGE:\n    flowedit [OPTIONS] [GRAPH] [SCRIPT]\n\n" ++
  "ARGS:\n" ++
  "    <GRAPH>     Graph description, /dev/stdin by default\n" ++
  "    <SCRIPT>    Edits to apply, one per line\n\n" ++
  "OPTIONS:\n" ++
  "    -d, --debug\n" ++
  "        --dot                Emit the edited graph as DOT instead of a report\n" ++
  "        --format <FORMAT>    Report format, text or json\n" ++
  "    -h, --help               Print help information\n" ++
  "    -o <FILE>                Output file, /dev/stdout by default\n" ++
  "    -v, --verbose\n" ++
  "    -V, --version            Print version information\n"

variable {m : Type → Type} [Monad m]

/-- The argument words are settled before any file is touched. -/
def execute (host : Host m) (words : List String) : m Outcome := do
  match Options.read words with
  | .error (.usage fault) => return .misused fault
  | .error .help =>
      let _ ← host.print helpText
      return .helped
  | .error .version =>
      let _ ← host.print versionText
      return .helped
  | .ok options =>
      match ← (run host options).run with
      | .error failure => return .failed failure
      | .ok _ => return .done

end Switchyard.Command
