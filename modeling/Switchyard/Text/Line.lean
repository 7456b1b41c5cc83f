import Switchyard.Text.Blank

namespace Switchyard.Text

/-- A line that says something, with its number in the text. -/
structure Line where
  number : Nat
  content : List Char
deriving DecidableEq, Repr

namespace Line

def text (line : Line) : String := String.ofList line.content

def words (line : Line) : List String := Text.words line.text

/-- Diagnostics name a line by its number. -/
def label (number : Nat) : String := "line " ++ toString number

end Line

/-- A line says what stands before its first hash sign, without blanks at either end. A carriage
return before the line feed is such a blank. -/
def content (line : List Char) : List Char :=
  trim (line.takeWhile (· ≠ '#'))

/-- Lines end at line feeds and are counted from one. -/
def numbered (text : List Char) : List Line :=
  ((text.splitOn '\n').zipIdx 1).map fun (line, number) => ⟨number, content line⟩

/-- Only lines that say something are kept. -/
def significant (text : String) : List Line :=
  (numbered text.toList).filter (!·.content.isEmpty)

end Switchyard.Text
