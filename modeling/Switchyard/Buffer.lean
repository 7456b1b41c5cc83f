import Switchyard.Label

namespace Switchyard.Buffer

/-- The entries from `start` on give way to new ones, and the window ends in front of `stop`. It has
to lie in the buffer and to be as long as the new entries are. -/
def overwrite? (buffer : List Label) (start stop : Nat) (entries : List Label) :
    Option (List Label) :=
  if start ≤ stop ∧ stop ≤ buffer.length ∧ entries.length = stop - start then
    some (buffer.take start ++ entries ++ buffer.drop stop)
  else none

end Switchyard.Buffer
