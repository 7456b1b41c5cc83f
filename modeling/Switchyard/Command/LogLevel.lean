namespace Switchyard.Command

inductive LogLevel where
  | warn
  | info
  | trace
deriving DecidableEq, Repr

namespace LogLevel

def name : LogLevel → String
  | .warn => "warn"
  | .info => "info"
  | .trace => "trace"

/-- The debug flag shows most, and it outdoes the verbose flag. -/
def ofFlags (debug verbose : Bool) : LogLevel :=
  if debug then .trace else if verbose then .info else .warn

end LogLevel

end Switchyard.Command
