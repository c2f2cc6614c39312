/-!
# LiveSchema.Files.Fault

Why a file cannot be read or a directory made. Most faults are told by the operating system, which
numbers them; two are found before or after it is asked, and have no number.
-/

namespace LiveSchema

/-- Why a file cannot be read or a directory made. -/
inductive FileFault where
  | notFound
  /-- A file stands where a directory has to be made. -/
  | alreadyExists
  /-- The path goes on after a file. -/
  | notDirectory
  | isDirectory
  /-- A name, or the whole path, is too long. -/
  | nameTooLong
  /-- The path holds the character that ends every path. -/
  | invalidPath
  /-- The bytes of the file are no text. -/
  | invalidText
deriving DecidableEq, Repr

namespace FileFault

/-- The number of a fault, if the operating system tells of it. -/
def code? : FileFault → Option Nat
  | .notFound => some 2
  | .alreadyExists => some 17
  | .notDirectory => some 20
  | .isDirectory => some 21
  | .nameTooLong => some 36
  | .invalidPath => none
  | .invalidText => none

/-- The name of a fault. -/
def name : FileFault → String
  | .notFound => "NotFound"
  | .alreadyExists => "AlreadyExists"
  | .notDirectory => "NotADirectory"
  | .isDirectory => "IsADirectory"
  | .nameTooLong => "InvalidFilename"
  | .invalidPath => "InvalidInput"
  | .invalidText => "InvalidData"

/-- The words for a fault. -/
def reason : FileFault → String
  | .notFound => "No such file or directory"
  | .alreadyExists => "File exists"
  | .notDirectory => "Not a directory"
  | .isDirectory => "Is a directory"
  | .nameTooLong => "File name too long"
  | .invalidPath => "file name contained an unexpected NUL byte"
  | .invalidText => "stream did not contain valid UTF-8"

/-- The wording of a fault. -/
def message (f : FileFault) : String :=
  match f.code? with
  | some code => f.reason ++ " (os error " ++ toString code ++ ")"
  | none => f.reason

end FileFault

end LiveSchema
