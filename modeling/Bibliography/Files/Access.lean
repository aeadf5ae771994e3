import Bibliography.Files.Error
import Bibliography.Files.Path

set_option autoImplicit false

/-! # Access to files

The few things that a run does with files, in any monad that can do them: the command line runs
in `IO`, and `Bibliography.Files.Tree` gives a pure file system. -/

namespace Bibliography

/-- Reading and writing files in the monad `m`. -/
structure FileAccess (m : Type → Type) where
  /-- The text of a file. -/
  read : Path → m (Except FileError Text)
  /-- Whether the path leads to a file (and not to a directory). -/
  isFile : Path → m Bool
  /-- Whether the path leads anywhere. -/
  isPresent : Path → m Bool
  /-- Makes the text the content of a file; a failed attempt changes nothing. -/
  write : Path → Text → m (Except FileError Unit)

end Bibliography
