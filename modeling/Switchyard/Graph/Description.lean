import Switchyard.Graph.Update
import Switchyard.Text.Line
import Switchyard.Word

namespace Switchyard

/-- A text describes no graph. -/
inductive DescriptionFault where
  | empty
  | headerMissing
  | badCount (bad : BadWord)
  | tooManyBlocks (count : Nat)
  | unknownDirective (line : Nat) (keyword : String)
  | ownerMissing (line : Nat)
  /-- This fault does not name its line. -/
  | badOwner (bad : BadWord)
  | badTarget (line : Nat) (bad : BadWord)
  /-- The graph refuses the switch. -/
  | refused (line : Nat) (cause : Fault)
deriving DecidableEq, Repr

/-- A description may declare two to the twentieth blocks. -/
def Graph.maxBlocks : Nat := 1048576

def DescriptionFault.message : DescriptionFault → String
  | .empty => "graph description is empty"
  | .headerMissing => "graph description should start with `blocks <count>'"
  | .badCount bad => bad.message
  | .tooManyBlocks count =>
      "block count " ++ toString count ++ " exceeds the limit of " ++ toString Graph.maxBlocks
  | .unknownDirective line keyword =>
      Text.Line.label line ++ ": unknown directive `" ++ keyword ++ "'"
  | .ownerMissing line => Text.Line.label line ++ ": switch without a block"
  | .badOwner bad => bad.message
  | .badTarget line bad => Text.Line.label line ++ ": " ++ bad.message
  | .refused line cause => Text.Line.label line ++ ": " ++ cause.account

namespace Graph

/-- The first line holds its keyword and one number, and nothing else. -/
def readHeader (line : Text.Line) : Except DescriptionFault Nat :=
  match line.words with
  | ["blocks", word] => do
      let count ← (Role.count.read word).mapError .badCount
      if count ≤ maxBlocks then return count else throw (.tooManyBlocks count)
  | _ => .error .headerMissing

/-- The numbers behind the keyword are the owner and its targets. -/
def readSwitch (line : Text.Line) : Except DescriptionFault (Label × List Label) :=
  match line.words with
  | ["switch"] => .error (.ownerMissing line.number)
  | "switch" :: owner :: targets => do
      let owner ← (Role.label.read owner).mapError .badOwner
      let targets ← targets.mapM fun word =>
        (Role.label.read word).mapError (.badTarget line.number)
      return (owner, targets)
  | words => .error (.unknownDirective line.number (words.headD ""))

/-- A line takes effect before the next one is read. Its table takes the targets word by word. -/
def declare (g : Graph) (line : Text.Line) : Except DescriptionFault Graph := do
  let (owner, targets) ← readSwitch line
  match attachSwitch owner (.gather targets) g with
  | .ok _ g => return g
  | .error cause _ => throw (.refused line.number cause)

/-- The first line declares the number of blocks. Each line behind it ends one of them in a switch
over the targets that it lists. -/
def read (text : String) : Except DescriptionFault Graph :=
  match Text.significant text with
  | [] => .error .empty
  | header :: lines => do lines.foldlM declare (ofSize (← readHeader header))

end Graph

end Switchyard
