/-!
# Files/Fault — why a file operation fails
-/

namespace PinnedManifest.Files

/-- Why a file operation fails. -/
inductive Fault
  | notFound
  | permissionDenied
  | isADirectory
  | notADirectory
  | busy
  | linkLoop
  | nameTooLong
  /-- A path that holds a NUL character. -/
  | nulInPath
  /-- Content that is not UTF-8 where a text is asked for. -/
  | notText
  /-- An output that nobody may write. -/
  | readOnly
  /-- Any other fault, in the words of the system. -/
  | other (text : String)
  deriving DecidableEq, Repr

/-- The wording of a fault. -/
def Fault.message : Fault → String
  | .notFound => "No such file or directory (os error 2)"
  | .permissionDenied => "Permission denied (os error 13)"
  | .isADirectory => "Is a directory (os error 21)"
  | .notADirectory => "Not a directory (os error 20)"
  | .busy => "Device or resource busy (os error 16)"
  | .linkLoop => "Too many levels of symbolic links (os error 40)"
  | .nameTooLong => "File name too long (os error 36)"
  | .nulInPath => "file name contained an unexpected NUL byte"
  | .notText => "stream did not contain valid UTF-8"
  | .readOnly => "destination is read-only"
  | .other text => text

end PinnedManifest.Files
