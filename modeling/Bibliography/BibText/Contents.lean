import Bibliography.BibText.Reader
import Bibliography.Database.Abbreviations
import Bibliography.Database.Basic
import Bibliography.Tex.Split

set_option autoImplicit false

/-! # The content of a database file

The items of a file, taken in their order, give its database. Definitions hold from where they
stand to the end of their file. A name that stands for nothing reads as empty text and raises a
warning; so does a personal name that cannot be read, which is left out. -/

namespace Bibliography

/-- What a database file warns of. -/
inductive BibWarning where
  /-- A name that stands for nothing, and where it was read. -/
  | undefinedName (file : Text) (line : Nat) (name : Text)
  /-- A personal name in an entry that cannot be read. -/
  | unreadableName (key : Text) (cause : DatabaseError)
  deriving DecidableEq, Repr

def BibWarning.message : BibWarning → String
  | .undefinedName _ _ name => "undefined macro \"" ++ String.ofList name ++ "\""
  | .unreadableName _ cause => cause.message

/-- A text with each run of white space replaced by a blank, and none at its ends. -/
def Text.collapse (s : Text) : Text :=
  Text.join [' '] ((s.splitWhere Unicode.isWhiteSpace).filter (· ≠ []))

def BibPiece.expand (a : Abbreviations) : BibPiece → Text
  | .text s => s
  | .name s _ => (a.expand? s).getD []

def BibValue.expand (a : Abbreviations) (v : BibValue) : Text :=
  Text.collapse (v.flatMap (·.expand a))

def BibPiece.warning? (file : Text) (a : Abbreviations) : BibPiece → Option BibWarning
  | .text _ => none
  | .name s line => if (a.expand? s).isSome then none else some (.undefinedName file line s)

def BibValue.warnings (file : Text) (a : Abbreviations) (v : BibValue) : List BibWarning :=
  v.filterMap (·.warning? file a)

namespace BibText

/-- The fields whose values are also read as persons. -/
def personFields : List Text := ["author".toList, "editor".toList]

/-- Adds the persons of a name list to an entry, and gives the warnings for the others. -/
def addPersons (role : Text) : List Text → Entry → Entry × List BibWarning
  | [], e => (e, [])
  | name :: names, e =>
    match Person.read name with
    | .ok p => addPersons role names (e.addPerson role p)
    | .error err =>
      let (e, warnings) := addPersons role names e
      (e, .unreadableName e.key err :: warnings)

def addField (name value : Text) (e : Entry) : Entry × List BibWarning :=
  let (e, warnings) :=
    if personFields.contains name then addPersons name (Tex.splitNameList value) e else (e, [])
  (e.setField name value, warnings)

def addFields (file : Text) (a : Abbreviations) : List BibField → Entry → Entry × List BibWarning
  | [], e => (e, [])
  | f :: fs, e =>
    let (e, here) := addField f.name (f.value.expand a) e
    let (e, later) := addFields file a fs e
    (e, f.value.warnings file a ++ here ++ later)

/-- Takes over definitions one by one; a later one can use those before it. -/
def define (file : Text) (a : Abbreviations) : List BibField → Abbreviations × List BibWarning
  | [] => (a, [])
  | f :: fs =>
    let (a', later) := define file (a.define f.name (f.value.expand a)) fs
    (a', f.value.warnings file a ++ later)

/-- What the items read so far say. -/
structure Contents where
  abbreviations : Abbreviations
  database : Database := .empty
  deriving DecidableEq, Repr

def Contents.addItem (file : Text) (k : Contents) :
    BibItem → Except DatabaseError Contents × List BibWarning
  | .preamble v =>
    (.ok { k with database := k.database.addToPreamble (v.expand k.abbreviations) },
      v.warnings file k.abbreviations)
  | .definitions fields =>
    let (a, warnings) := define file k.abbreviations fields
    (.ok { k with abbreviations := a }, warnings)
  | .entry kind key fields =>
    let (e, warnings) := addFields file k.abbreviations fields (Entry.empty key kind)
    match k.database.add e with
    | .ok d => (.ok { k with database := d }, warnings)
    | .error err => (.error err, warnings)

/-- Takes items into account up to the first that cannot be added. -/
def Contents.addItems (file : Text) :
    List BibItem → Contents → Except DatabaseError Contents × List BibWarning
  | [], k => (.ok k, [])
  | i :: is, k =>
    match k.addItem file i with
    | (.error err, here) => (.error err, here)
    | (.ok k, here) =>
      let (result, later) := Contents.addItems file is k
      (result, here ++ later)

/-- The warnings for what was read of an item before a fault: those of its fields, and those of
the value that the fault stands in. -/
def Failure.warnings (file : Text) (k : Contents) (f : Failure) : List BibWarning :=
  match f.item with
  | some (.definitions fields) =>
    let (a, warnings) := define file k.abbreviations fields
    warnings ++ f.break_.pending.warnings file a
  | some (.entry kind key fields) =>
    (addFields file k.abbreviations fields (Entry.empty key kind)).2 ++
      f.break_.pending.warnings file k.abbreviations
  | _ => f.break_.pending.warnings file k.abbreviations

end BibText

/-- The database of a text, and the warnings that reading it raises. `file` names the text in
messages, and `a` holds the abbreviations that it may use from the start. -/
def Database.ofText (source file : Text) (a : Abbreviations) :
    Except DatabaseError Database × List BibWarning :=
  let (items, failure) := BibText.items source
  match BibText.Contents.addItems file items { abbreviations := a } with
  | (.error err, warnings) => (.error err, warnings)
  | (.ok k, warnings) =>
    match failure with
    | none => (.ok k.database, warnings)
    | some f =>
      (.error (.malformed file f.break_.stuck.line f.break_.stuck.fault),
        warnings ++ f.warnings file k)

end Bibliography
