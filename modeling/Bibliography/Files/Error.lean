set_option autoImplicit false

/-! # Why a file cannot be read or written -/

namespace Bibliography

inductive FileError where
  | notFound
  | notDirectory
  | isDirectory
  | nameTooLong
  /-- A name with a null character. -/
  | nullInName
  /-- The content is no UTF-8 text. -/
  | notText
  /-- Any other cause, in the words of the operating system. -/
  | other (message : String)
  deriving DecidableEq, Repr

def FileError.message : FileError → String
  | .notFound => "No such file or directory (os error 2)"
  | .notDirectory => "Not a directory (os error 20)"
  | .isDirectory => "Is a directory (os error 21)"
  | .nameTooLong => "File name too long (os error 36)"
  | .nullInName => "file name contained an unexpected NUL byte"
  | .notText => "stream did not contain valid UTF-8"
  | .other message => message

end Bibliography
