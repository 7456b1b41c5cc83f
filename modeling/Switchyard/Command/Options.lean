namespace Switchyard.Command

inductive Format where
  | text
  | json
deriving DecidableEq, Repr

def Format.ofName? : String → Option Format
  | "text" => some .text
  | "json" => some .json
  | _ => none

/-- What the command is asked to do. Its three paths may be the same. -/
structure Options where
  debug : Bool
  verbose : Bool
  dot : Bool
  format : Format
  graph : String
  script : Option String
  output : String
deriving DecidableEq, Repr

/-- What can be wrong with the words of a call. -/
inductive UsageFault where
  | unknownOption (word : String)
  | needlessValue (word : String)
  | missingValue
  | emptyValue
  | badFormat (word : String)
  | repeatedFormat
  | tooManyPlaces (word : String)
deriving DecidableEq, Repr

def UsageFault.message : UsageFault → String
  | .unknownOption word => "unknown option `" ++ word ++ "'"
  | .needlessValue word => "option `" ++ word ++ "' takes no value"
  | .missingValue => "an option lacks its value"
  | .emptyValue => "a value is empty"
  | .badFormat word => "unknown format `" ++ word ++ "'"
  | .repeatedFormat => "the format is given more than once"
  | .tooManyPlaces word => "unexpected argument `" ++ word ++ "'"

/-- Reading ends early at a fault or when the command has something to tell. -/
inductive Stop where
  | usage (fault : UsageFault)
  | help
  | version
deriving DecidableEq, Repr

/-- Two options take a value. -/
inductive ValueOption where
  | format
  | output
deriving DecidableEq, Repr

/-- What the words read so far have settled. -/
structure Draft where
  debug : Bool
  verbose : Bool
  dot : Bool
  /-- One value for each mention of a format, in order. -/
  formats : List String
  /-- The value of the last mention of an output. -/
  output : Option String
  /-- The graph and the script, in this order. -/
  places : List String
  /-- This option waits for the next word. -/
  pending : Option ValueOption
  /-- All further words are places. -/
  closed : Bool
deriving DecidableEq, Repr

namespace Draft

def blank : Draft := ⟨false, false, false, [], none, [], none, false⟩

/-- A mention has an empty value, which no option accepts, until it is given another one. A later
output replaces an earlier one. -/
def mention (draft : Draft) (option : ValueOption) : Draft :=
  match option with
  | .format => { draft with formats := draft.formats ++ [""], pending := some option }
  | .output => { draft with output := some "", pending := some option }

/-- The next word is not the value that an option waits for. -/
def abandon (draft : Draft) : Draft := { draft with pending := none }

/-- The value belongs to the last mention of its option. -/
def give (draft : Draft) (option : ValueOption) (value : String) : Except Stop Draft :=
  match option with
  | .format => .ok { draft with formats := draft.formats.dropLast ++ [value], pending := none }
  | .output =>
      if value.isEmpty then .error (.usage .emptyValue)
      else .ok { draft with output := some value, pending := none }

/-- There are two places at most, and neither is empty. -/
def place (draft : Draft) (word : String) : Except Stop Draft :=
  if 2 ≤ draft.places.length then .error (.usage (.tooManyPlaces word))
  else if word.isEmpty then .error (.usage .emptyValue)
  else .ok { draft with places := draft.places ++ [word] }

/-- A long option may have its value behind an equals sign. -/
def long (draft : Draft) (name : String) (value : Option String) : Except Stop Draft :=
  match name, value with
  | "format", some value => (draft.mention .format).give .format value
  | "format", none => .ok (draft.mention .format)
  | "debug", none => .ok { draft with debug := true }
  | "verbose", none => .ok { draft with verbose := true }
  | "dot", none => .ok { draft with dot := true }
  | "help", none => .error .help
  | "version", none => .error .version
  | "debug", some _ | "verbose", some _ | "dot", some _ | "help", some _ | "version", some _ =>
      .error (.usage (.needlessValue name))
  | _, _ => .error (.usage (.unknownOption name))

/-- Short options may share a word. What stands behind an option that takes a value is the value,
with or without an equals sign before it. -/
def short (draft : Draft) : List Char → Except Stop Draft
  | [] => .ok draft
  | 'd' :: rest => { draft with debug := true }.short rest
  | 'v' :: rest => { draft with verbose := true }.short rest
  | ['o'] => .ok (draft.mention .output)
  | 'o' :: '=' :: value => (draft.mention .output).give .output (String.ofList value)
  | 'o' :: value => (draft.mention .output).give .output (String.ofList value)
  | 'h' :: _ => .error .help
  | 'V' :: _ => .error .version
  | c :: _ => .error (.usage (.unknownOption (String.singleton c)))

/-- The name of a long option ends at the first equals sign. -/
def splitLong (word : List Char) : String × Option String :=
  (String.ofList (word.takeWhile (· ≠ '=')),
    match word.dropWhile (· ≠ '=') with
    | [] => none
    | _ :: value => some (String.ofList value))

/-- A word that starts with a hyphen is an option, unless it is a hyphen alone or all further words
are places. -/
def take (draft : Draft) (word : String) : Except Stop Draft :=
  if draft.closed then draft.place word
  else match word.toList with
    | ['-', '-'] => .ok { draft.abandon with closed := true }
    | '-' :: '-' :: rest => draft.abandon.long (splitLong rest).1 (splitLong rest).2
    | '-' :: c :: rest => draft.abandon.short (c :: rest)
    | _ =>
        match draft.pending with
        | some option => draft.give option word
        | none => draft.place word

/-- A format is given once at most. -/
def format (draft : Draft) : Except UsageFault Format :=
  match draft.formats with
  | [] => .ok .text
  | [name] =>
      match Format.ofName? name with
      | none => .error (.badFormat name)
      | some format => .ok format
  | _ => .error .repeatedFormat

/-- The last mention of an output has to have a value. -/
def outputPath (draft : Draft) : Except UsageFault String :=
  match draft.output with
  | none => .ok "/dev/stdout"
  | some path => if path.isEmpty then .error .missingValue else .ok path

/-- What was not given has a default. -/
def finish (draft : Draft) : Except UsageFault Options := do
  return {
    debug := draft.debug
    verbose := draft.verbose
    dot := draft.dot
    format := ← draft.format
    graph := draft.places.headD "/dev/stdin"
    script := draft.places[1]?
    output := ← draft.outputPath }

end Draft

/-- The words are taken from the left. The first one that cannot be accepted ends the reading, and
so does a call for help or for the version. Formats and missing values are judged after the last
word. -/
def Options.read (words : List String) : Except Stop Options := do
  (← words.foldlM Draft.take .blank).finish.mapError .usage

end Switchyard.Command
