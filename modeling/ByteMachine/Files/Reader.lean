/-! Reading files. A reader answers the bytes of the file at a path, or why there are none. -/

namespace ByteMachine

/-- Why a file cannot be read. -/
inductive ReadError where
  | missing
  | isDirectory
  | notDirectory
  | nameTooLong
  /-- The path has a zero character in it, which ends a path. -/
  | notPath
  | notText
  /-- A reason that comes from outside, in its own words. -/
  | other (reason : String)
  deriving DecidableEq, Repr

def ReadError.message : ReadError → String
  | .missing => "No such file or directory (os error 2)"
  | .isDirectory => "Is a directory (os error 21)"
  | .notDirectory => "Not a directory (os error 20)"
  | .nameTooLong => "File name too long (os error 36)"
  | .notPath => "file name contained an unexpected NUL byte"
  | .notText => "stream did not contain valid UTF-8"
  | .other reason => reason

abbrev FileReader := String → Except ReadError ByteArray

/-- The content of a file as text, which has to be encoded in UTF-8. -/
def FileReader.text (files : FileReader) (path : String) : Except ReadError String :=
  match files path with
  | .error reason => .error reason
  | .ok content =>
      match String.fromUTF8? content with
      | none => .error .notText
      | some text => .ok text

end ByteMachine
