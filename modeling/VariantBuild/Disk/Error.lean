/-!
# Refusals of the system

Why a request to the file system or to start a program is refused, in the system's own words. Texts
are handed over to the system up to a NUL, so a request with one inside is refused before it is made;
the wording then tells paths and commands apart.
-/

namespace VariantBuild

/-- Why the system refuses a request. -/
inductive SystemError where
  | notFound
  | argumentsTooLong
  | permissionDenied
  | alreadyExists
  | notDirectory
  | isDirectory
  | nameTooLong
  /-- A path holds a NUL. -/
  | nulInPath
  /-- A part of a command holds a NUL. -/
  | nulInCommand
deriving DecidableEq, Repr

/-- The refusal in words. -/
def SystemError.message : SystemError → String
  | .notFound => "No such file or directory (os error 2)"
  | .argumentsTooLong => "Argument list too long (os error 7)"
  | .permissionDenied => "Permission denied (os error 13)"
  | .alreadyExists => "File exists (os error 17)"
  | .notDirectory => "Not a directory (os error 20)"
  | .isDirectory => "Is a directory (os error 21)"
  | .nameTooLong => "File name too long (os error 36)"
  | .nulInPath => "file name contained an unexpected NUL byte"
  | .nulInCommand => "nul byte found in provided data"

/-- Why a text file cannot be read. -/
inductive ReadError where
  | system (error : SystemError)
  | notText
deriving DecidableEq, Repr

/-- The reason in words. -/
def ReadError.message : ReadError → String
  | .system error => error.message
  | .notText => "stream did not contain valid UTF-8"

/-- Whether a text holds a NUL. -/
def holdsNul (text : String) : Bool :=
  text.toList.contains (Char.ofNat 0)

end VariantBuild
