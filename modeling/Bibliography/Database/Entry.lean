import Bibliography.Database.Error
import Bibliography.Person
import Bibliography.Text.Table

set_option autoImplicit false

/-! # Entries

An entry has a key, a type, fields and persons by role. Field names, roles and the type are kept
in lower case; the key keeps its spelling. -/

namespace Bibliography

def Person.read (name : Text) : Except DatabaseError Person :=
  match Person.ofText? name with
  | some p => .ok p
  | none => .error (.invalidName name.trim)

/-- The value of a field. A field that is absent is not empty: styles tell the two apart, and
report the field by its name. -/
inductive FieldValue where
  | present (value : Text)
  | missing (name : Text)
  deriving DecidableEq, Repr

namespace FieldValue

def isMissing : FieldValue → Bool
  | .present _ => false
  | .missing _ => true

/-- The text of the field, empty when it is absent. -/
def text : FieldValue → Text
  | .present value => value
  | .missing _ => []

def toOption : FieldValue → Option Text
  | .present value => some value
  | .missing _ => none

end FieldValue

structure Entry where
  key : Text
  kind : Text
  fields : Table Text := []
  persons : Table (List Person) := []
  deriving DecidableEq, Repr

namespace Entry

def empty (key kind : Text) : Entry := { key := key, kind := kind.fold }

def setField (e : Entry) (name value : Text) : Entry :=
  { e with fields := e.fields.set name.fold value }

def field? (e : Entry) (name : Text) : Option Text := e.fields.get? name.fold

def personsOf (e : Entry) (role : Text) : List Person := (e.persons.get? role.fold).getD []

def addPerson (e : Entry) (role : Text) (p : Person) : Entry :=
  { e with persons := e.persons.set role.fold (e.personsOf role ++ [p]) }

/-- The key of the entry that this one refers to, if its field is not blank. -/
def crossref? (e : Entry) : Option Text :=
  ((e.field? "crossref".toList).map Text.trim).filter (· ≠ [])

/-- What the entry itself says about a field: its value, or the persons with that role as a name
list. -/
def ownValue? (e : Entry) (name : Text) : Option Text :=
  match e.field? name with
  | some value => some value
  | none =>
    match e.personsOf name with
    | [] => none
    | persons => some (Text.join " and ".toList (persons.map Person.toText))

end Entry

end Bibliography
