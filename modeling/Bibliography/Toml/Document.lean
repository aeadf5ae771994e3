import Bibliography.Text.Table

set_option autoImplicit false

/-! # TOML documents

A document is a table of values. Tables come about in four ways, and these decide what may be
added to them later: a key can be set only once, a table can have only one header, and keys with
dots do not reach into tables that were written otherwise. -/

namespace Bibliography.Toml

/-- How a table came about. -/
inductive Origin where
  /-- By a header of its own. -/
  | header
  /-- By the header of a table inside it. -/
  | implied
  /-- By a key with dots. -/
  | dotted
  /-- Between braces. -/
  | inline
  deriving DecidableEq, Repr

/-- A value of a document. Arrays of tables with headers of their own are left out. -/
inductive Value where
  | integer (n : Int)
  /-- Any other number, as it is written. -/
  | float (s : Text)
  /-- A date or a time, as it is written. -/
  | dateTime (s : Text)
  | boolean (b : Bool)
  | string (s : Text)
  | array (items : List Value)
  | table (origin : Origin) (fields : List (Text × Value))

/-- A document, or the fields of one of its tables. -/
abbrev Document := Table Value

namespace Document

/-- Sets the value of a key with dots, which must be new. -/
def assign (v : Value) : List Text → Document → Option Document
  | [], _ => none
  | [key], d => if d.contains key then none else some (d.set key v)
  | key :: path, d =>
    match d.get? key with
    | none => (assign v path []).map fun fields => d.set key (.table .dotted fields)
    | some (.table .dotted fields) =>
      (assign v path fields).map fun fields => d.set key (.table .dotted fields)
    | some (.table .implied fields) =>
      if path.length = 1 then none
      else (assign v path fields).map fun fields => d.set key (.table .implied fields)
    | some _ => none

def openTable : List Text → Document → Option Document
  | [], _ => none
  | [key], d =>
    match d.get? key with
    | none => some (d.set key (.table .header []))
    | some (.table .implied fields) => some (d.set key (.table .header fields))
    | some _ => none
  | key :: path, d =>
    match d.get? key with
    | none => (openTable path []).map fun fields => d.set key (.table .implied fields)
    | some (.table .inline _) => none
    | some (.table origin fields) =>
      (openTable path fields).map fun fields => d.set key (.table origin fields)
    | some _ => none

/-- Sets the value of a key with dots in the table of a header. -/
def assignIn (v : Value) (path : List Text) : List Text → Document → Option Document
  | [], d => d.assign v path
  | key :: header, d =>
    match d.get? key with
    | some (.table origin fields) =>
      (assignIn v path header fields).map fun fields => d.set key (.table origin fields)
    | _ => none

end Document

end Bibliography.Toml
