import Switchyard.Command.Outcome

namespace Switchyard

open Command

/-- The error number of a failed system call and the system's words for it. -/
def numbered? : IO.Error → Option (Nat × String)
  | .noFileOrDirectory _ code details | .interrupted _ code details => some (code.toNat, details)
  | .alreadyExists _ code details | .inappropriateType _ code details
  | .invalidArgument _ code details | .noSuchThing _ code details
  | .permissionDenied _ code details | .resourceExhausted _ code details =>
      some (code.toNat, details)
  | .hardwareFault code details | .illegalOperation code details | .otherError code details
  | .protocolError code details | .resourceBusy code details | .resourceVanished code details
  | .timeExpired code details | .unsatisfiedConstraints code details
  | .unsupportedOperation code details => some (code.toNat, details)
  | .unexpectedEof | .userError _ => none

/-- The error number tells the cause. -/
def systemError (e : IO.Error) : SystemError :=
  match numbered? e with
  | none => .other (toString e)
  | some (2, _) => .notFound
  | some (6, _) => .noDevice
  | some (13, _) => .denied
  | some (20, _) => .notDirectory
  | some (21, _) => .isDirectory
  | some (28, _) => .noSpace
  | some (36, _) => .nameTooLong
  | some (code, details) => .other (details ++ " (os error " ++ toString code ++ ")")

/-- Failures of an action are values. -/
def attempt {α : Type} (action : IO α) : IO (Except SystemError α) := do
  try
    return .ok (← action)
  catch e =>
    return .error (systemError e)

def load (path : String) : IO (Except FileFault ByteArray) := do
  match ← attempt (IO.FS.Handle.mk path .read) with
  | .error cause => return .error (.opening cause)
  | .ok handle => return (← attempt handle.readBinToEnd).mapError .moving

def save (path text : String) : IO (Except FileFault Unit) := do
  match ← attempt (IO.FS.Handle.mk path .write) with
  | .error cause => return .error (.opening cause)
  | .ok handle =>
      return (← attempt (do handle.putStr text; handle.flush)).mapError .moving

/-- Reads until the stream ends. -/
partial def readAll (stream : IO.FS.Stream) (bytes : ByteArray) : IO ByteArray := do
  let more ← stream.read 65536
  if more.isEmpty then return bytes else readAll stream (bytes ++ more)

/-- Files and streams are the system's own. -/
def systemHost : Host IO where
  input := do
    let stream ← IO.getStdin
    attempt (readAll stream ByteArray.empty)
  load := load
  print := fun text => do
    let stream ← IO.getStdout
    attempt (do stream.putStr text; stream.flush)
  save := save

end Switchyard

open Switchyard in
/-- The exit code tells how the command went. -/
def main (words : List String) : IO UInt32 := do
  let outcome ← Command.execute systemHost words
  if let some complaint := outcome.complaint? then
    IO.eprintln complaint
  return outcome.exitCode.toUInt32
