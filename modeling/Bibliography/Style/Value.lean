import Bibliography.Database.Entry
import Bibliography.Style.Token

set_option autoImplicit false

/-! # Values

The values on the stack of a running style. A field that an entry does not have is a value of its
own; it reads as the empty text. -/

namespace Bibliography.Style

inductive Value where
  | integer (n : Int)
  | string (s : Text)
  /-- A field that the current entry does not have. -/
  | missing (field : Text)
  | function (body : List Token)
  /-- A reference to what a name is bound to. -/
  | reference (name : Text)
  deriving Repr

inductive ValueKind where
  | integer
  | string
  | missing
  | function
  | reference
  deriving DecidableEq, Repr

def ValueKind.word : ValueKind → String
  | .integer => "integer"
  | .string => "string"
  | .missing => "missing field"
  | .function => "function"
  | .reference => "variable reference"

namespace Value

def kind : Value → ValueKind
  | .integer _ => .integer
  | .string _ => .string
  | .missing _ => .missing
  | .function _ => .function
  | .reference _ => .reference

/-- The text of a string, or of a missing field. -/
def text? : Value → Option Text
  | .string s => some s
  | .missing _ => some []
  | _ => none

def ofBool (b : Bool) : Value := .integer (if b then 1 else 0)

def ofField : FieldValue → Value
  | .present s => .string s
  | .missing name => .missing name

def shown : Value → Text
  | .integer n => (toString n).toList
  | .string s => '"' :: s ++ ['"']
  | .missing field => "MISSING<".toList ++ field ++ ['>']
  | .function body => (Token.block body).text
  | .reference name => '\'' :: name

end Value

end Bibliography.Style
