import Bibliography.Diagnostic.Basic
import Bibliography.Files.Access

set_option autoImplicit false

/-! # Finding the style

A style is looked for beside the aux file, in the working directory, and in the directories that
were named for it. -/

namespace Bibliography

namespace StyleFile

/-- The name of the file of a style, `.bst` added when it has no extension. -/
def fileName (style : Text) : Path :=
  if (Path.extension? style).isSome then style else style ++ ".bst".toList

/-- The places where the file of a style can be, in the order in which they are tried. -/
def candidates (style : Text) (auxDirectory : Path) (directories : List Path) : List Path :=
  Path.join auxDirectory (fileName style) :: fileName style ::
    directories.map (Path.join · (fileName style))

/-- The first of some paths that leads to a file. -/
def firstFile {m : Type → Type} [Monad m] (files : FileAccess m) : List Path → m (Option Path)
  | [] => return none
  | p :: ps => do if ← files.isFile p then return some p else firstFile files ps

def find {m : Type → Type} [Monad m] (files : FileAccess m) (style : Text) (auxDirectory : Path)
    (directories : List Path) : m (Option Path) :=
  firstFile files (candidates style auxDirectory directories)

def shownDirectory (p : Path) : String := if p = [] then "." else p.toString

def diagnostic (problem : String) : Diagnostic where
  severity := .error
  title := "Style Not Found"
  code := some "B-5-2"
  problem := some problem

def notFound (style : Text) (auxDirectory : Path) (directories : List Path) : Diagnostic :=
  { diagnostic ("I couldn't find the style file '" ++ String.ofList style ++ ".bst'") with
    details :=
      (shownDirectory auxDirectory :: "the working directory" :: directories.map shownDirectory).map
        fun d => ⟨.info, "Looked in " ++ d, none⟩
    hints := ["Pass the style's directory with --bst-dir?"] }

def unreadable (path : Path) (cause : FileError) : Diagnostic :=
  diagnostic ("Cannot read " ++ path.toString ++ ": " ++ cause.message)

end StyleFile

end Bibliography
