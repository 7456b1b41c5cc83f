namespace Switchyard.Command

/-- Why a file operation failed. -/
inductive SystemError where
  | notFound
  | noDevice
  | denied
  | notDirectory
  | isDirectory
  | noSpace
  | nameTooLong
  /-- Any other cause in the system's own words. -/
  | other (message : String)
deriving DecidableEq, Repr

/-- The system's words for the cause, with its error number. -/
def SystemError.message : SystemError → String
  | .notFound => "No such file or directory (os error 2)"
  | .noDevice => "No such device or address (os error 6)"
  | .denied => "Permission denied (os error 13)"
  | .notDirectory => "Not a directory (os error 20)"
  | .isDirectory => "Is a directory (os error 21)"
  | .noSpace => "No space left on device (os error 28)"
  | .nameTooLong => "File name too long (os error 36)"
  | .other message => message

/-- A file fails when it is opened, or later when its content is moved. -/
inductive FileFault where
  | opening (cause : SystemError)
  | moving (cause : SystemError)
deriving DecidableEq, Repr

/-- The operations that the command needs. -/
structure Host (m : Type → Type) where
  /-- What is left of the standard input. -/
  input : m (Except SystemError ByteArray)
  load : String → m (Except FileFault ByteArray)
  print : String → m (Except SystemError Unit)
  /-- The file is created or emptied before the text is written. -/
  save : String → String → m (Except FileFault Unit)

end Switchyard.Command
