import Bibliography.AuxFile.Command
import Bibliography.Diagnostic.Basic
import Bibliography.Files.Error
import Bibliography.Files.Path

set_option autoImplicit false

/-! # What a document asks for

The commands of a document's aux files ask for entries, databases and a style. Asking twice for
the same entry or database changes nothing; two different styles are an error. -/

namespace Bibliography

/-- What the aux files of a document ask for. -/
structure AuxContents where
  /-- The keys that are cited, each where it is first cited. A `*` stands for all entries. -/
  citations : List Text := []
  databases : List Text := []
  style : Option Text := none
  deriving DecidableEq, Repr

inductive AuxError where
  | unreadable (path : Path) (cause : FileError)
  | missingDatabases (path : Path)
  | missingStyle (path : Path)
  /-- The file at `path` asks for a style after another one was asked for. -/
  | secondStyle (path : Path) (first second : Text)
  deriving DecidableEq, Repr

namespace AuxError

def message : AuxError → String
  | .unreadable path cause => "cannot read " ++ path.toString ++ ": " ++ cause.message
  | .missingDatabases path => path.toString ++ " has no \\bibdata command"
  | .missingStyle path => path.toString ++ " has no \\bibstyle command"
  | .secondStyle path first second =>
    path.toString ++ " names a second style '" ++ String.ofList second ++ "' after '" ++
      String.ofList first ++ "'"

def hints : AuxError → List String
  | .unreadable _ _ => ["Run LaTeX on the document first?"]
  | .missingDatabases _ => ["Add \\bibliography\x7b...\x7d to the document?"]
  | .missingStyle _ => ["Add \\bibliographystyle\x7b...\x7d to the document?"]
  | .secondStyle _ _ _ => []

def diagnostic (e : AuxError) : Diagnostic where
  severity := .error
  title := "Invalid Aux File"
  code := some "B-5-1"
  problem := some e.message
  hints := e.hints

end AuxError

/-- Adds items at the end, each unless it is the same as one that is there. -/
def Text.addNew (same : Text → Text → Bool) : List Text → List Text → List Text
  | old, [] => old
  | old, s :: new => addNew same (if old.any (same · s) then old else old ++ [s]) new

namespace AuxContents

/-- Adds citations; keys that differ in the case of ASCII letters are the same. -/
def cite (a : AuxContents) (keys : List Text) : AuxContents :=
  { a with citations := Text.addNew Text.sameIgnoringAsciiCase a.citations keys }

def addDatabases (a : AuxContents) (names : List Text) : AuxContents :=
  { a with databases := Text.addNew (· == ·) a.databases names }

def setStyle (a : AuxContents) (path : Path) (name : Text) : Except AuxError AuxContents :=
  match a.style with
  | none => .ok { a with style := some name }
  | some first =>
    if first = name then .ok a else .error (.secondStyle path first name)

/-- The contents of the aux files of the document at `path`, if there is at least one database,
and a style. -/
def settled (a : AuxContents) (path : Path) : Except AuxError AuxContents :=
  if a.databases = [] then .error (.missingDatabases path)
  else if a.style = none then .error (.missingStyle path)
  else .ok a

end AuxContents

end Bibliography
