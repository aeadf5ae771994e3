import Bibliography.BibText.Contents

set_option autoImplicit false

/-! # Where entries come from

A style reads its entries from database files, which are looked for in one directory, or from a
database that is already there. -/

namespace Bibliography

/-- Where the entries of a run come from. -/
inductive Source where
  /-- A database that is there already, whatever files are named. -/
  | memory (d : Database)
  /-- Files seen from a directory, and how they are read. -/
  | files (directory : Path) (read : Path → Except FileError Text)

namespace Source

/-- The path of a database file, `.bib` added when it has no extension. -/
def bibPath (directory : Path) (name : Text) : Path :=
  let path := Path.join directory name
  if (Path.extension? path).isSome then path else Path.withExtension path "bib".toList

/-- Reads files one by one into a database, up to the first error. -/
def loadFiles (directory : Path) (read : Path → Except FileError Text) (a : Abbreviations) :
    List Text → Database → Except DatabaseError Database × List BibWarning
  | [], d => (.ok d, [])
  | name :: names, d =>
    let path := bibPath directory name
    match read path with
    | .error cause => (.error (.unreadable path cause), [])
    | .ok text =>
      match Database.ofText text path a with
      | (.error e, warnings) => (.error e, warnings)
      | (.ok other, warnings) =>
        match d.merge other with
        | (_, some e) => (.error e, warnings)
        | (d, none) =>
          let (result, later) := loadFiles directory read a names d
          (result, warnings ++ later)

/-- The entries of the named files, and the warnings that reading them raises. -/
def load (s : Source) (names : List Text) (a : Abbreviations) :
    Except DatabaseError Database × List BibWarning :=
  match s with
  | .memory d => (.ok d, [])
  | .files directory read => loadFiles directory read a names .empty

end Source

end Bibliography
