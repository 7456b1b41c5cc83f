import Switchyard.Command.Host

namespace Switchyard.Command

/-- A place is the list of names on the way from the root. -/
abbrev Place := List String

/-- Devices accept every text or none. The standard streams have nodes of their own. -/
inductive Node where
  /-- A directory that takes no new files has a cause to refuse them. -/
  | directory (refusal : Option SystemError)
  | file (content : ByteArray)
  /-- A link leads to the place of another node, which is no link. -/
  | link (target : Place)
  | input
  | output
  | sink
  | full
  /-- A terminal that the command is not attached to. -/
  | terminal

/-- A host without side effects. It holds a tree of files, a working directory and the two standard
streams as plain values. Nothing is below a place without a node. -/
structure World where
  nodes : List (Place × Node)
  /-- Relative paths start here. -/
  here : Place
  input : ByteArray
  printed : String

namespace World

/-- The root is a directory. -/
def node? (w : World) (place : Place) : Option Node :=
  if place.isEmpty then some (.directory none) else w.nodes.lookup place

/-- What was there is replaced. -/
def put (w : World) (place : Place) (node : Node) : World :=
  { w with nodes := (place, node) :: w.nodes.filter (·.1 ≠ place) }

/-- A link is followed once. -/
def follow (w : World) (place : Place) : Place :=
  match w.node? place with
  | some (.link target) => target
  | _ => place

/-- Directories that take new files know only names of at most 255 bytes. -/
def checkName (refusal : Option SystemError) (name : String) : Except SystemError Unit :=
  if refusal.isNone ∧ 255 < name.utf8ByteSize then .error .nameTooLong else .ok ()

/-- A path has less than 4096 bytes. -/
def checkPath (path : String) : Except SystemError Unit :=
  if 4096 ≤ path.utf8ByteSize then .error .nameTooLong else .ok ()

/-- A step down or up needs a directory to start from. -/
def walk (w : World) (place : Place) : List String → Except SystemError Place
  | [] => .ok place
  | name :: rest =>
      match w.node? place with
      | none => .error .notFound
      | some (.directory refusal) =>
          if name = "" ∨ name = "." then w.walk place rest
          else if name = ".." then w.walk place.dropLast rest
          else do
            checkName refusal name
            w.walk (w.follow (place ++ [name])) rest
      | some _ => .error .notDirectory

/-- A leading slash starts at the root. -/
def start (w : World) (path : String) : Place :=
  if path.startsWith "/" then [] else w.here

/-- A path is a list of names that are looked up one after the other. -/
def names (path : String) : List String := (path.toList.splitOn '/').map String.ofList

/-- The place that a path leads to, for a reader. -/
def resolve (w : World) (path : String) : Except SystemError Place := do
  checkPath path
  w.walk (w.start path) (names path)

/-- The standard input is used up by its first reader. -/
def drain (w : World) : ByteArray × World := (w.input, { w with input := ByteArray.empty })

def print (w : World) (text : String) : World := { w with printed := w.printed ++ text }

/-- A directory can be opened, but it has no content. -/
def load (w : World) (path : String) : Except FileFault (ByteArray × World) :=
  match w.resolve path with
  | .error cause => .error (.opening cause)
  | .ok place =>
      match w.node? place with
      | none | some (.link _) => .error (.opening .notFound)
      | some (.directory _) => .error (.moving .isDirectory)
      | some (.file content) => .ok (content, w)
      | some .input => .ok w.drain
      | some .output | some .sink | some .full => .ok (ByteArray.empty, w)
      | some .terminal => .error (.opening .noDevice)

/-- The place for a name in a directory, which has to take the name when it is new. -/
def entry (w : World) (parent : Place) (name : String) : Except SystemError Place := do
  let refusal := match w.node? parent with
    | some (.directory refusal) => refusal
    | _ => none
  checkName refusal name
  let place := w.follow (parent ++ [name])
  match w.node? place, refusal with
  | none, some cause => throw cause
  | _, _ => return place

/-- The last name of an output path has to name a file, so a path that ends with a slash or a dot
name stands for a directory. -/
def outputPlace (w : World) (path : String) : Except SystemError Place := do
  checkPath path
  let reversed := (names path).reverse
  let kept := reversed.dropWhile (· = "")
  match kept with
  | [] => throw .isDirectory
  | last :: above => do
      let parent ← w.walk (w.start path) (above.reverse ++ [""])
      if kept.length < reversed.length ∨ last = "." ∨ last = ".." then throw .isDirectory
      w.entry parent last

/-- What is written to the standard input is lost. -/
def save (w : World) (path text : String) : Except FileFault World :=
  match w.outputPlace path with
  | .error cause => .error (.opening cause)
  | .ok place =>
      match w.node? place with
      | some (.directory _) => .error (.opening .isDirectory)
      | some .terminal => .error (.opening .noDevice)
      | some .full => .error (.moving .noSpace)
      | some .output => .ok (w.print text)
      | some .input | some .sink => .ok w
      | none | some (.file _) | some (.link _) => .ok (w.put place (.file text.toUTF8))

/-- A failed operation changes nothing. -/
def host : Host (StateM World) where
  input := fun w => (.ok w.drain.1, w.drain.2)
  load := fun path w =>
    match w.load path with
    | .ok (content, w) => (.ok content, w)
    | .error fault => (.error fault, w)
  print := fun text w => (.ok (), w.print text)
  save := fun path text w =>
    match w.save path text with
    | .ok w => (.ok (), w)
    | .error fault => (.error fault, w)

end World

end Switchyard.Command
