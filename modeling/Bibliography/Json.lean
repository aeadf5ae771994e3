import Bibliography.Text.Basic

set_option autoImplicit false

/-! # JSON

The values in which diagnostics are handed to other programs, and their compact text. The fields
of an object are written in the order in which they are given. -/

namespace Bibliography

/-- A JSON value without floating-point numbers. -/
inductive JsonValue where
  | null
  | bool (b : Bool)
  | number (n : Int)
  | string (s : String)
  | array (items : List JsonValue)
  | object (fields : List (String × JsonValue))

namespace JsonValue

def escapeChar (c : Char) : Text :=
  if c = '"' ∨ c = '\\' then ['\\', c]
  else if c = '\n' then ['\\', 'n']
  else if c = '\t' then ['\\', 't']
  else if c = '\r' then ['\\', 'r']
  else if c = '\x08' then ['\\', 'b']
  else if c = '\x0c' then ['\\', 'f']
  else if c.toNat < 32 then
    ['\\', 'u', '0', '0', Nat.digitChar (c.toNat / 16), Nat.digitChar (c.toNat % 16)]
  else [c]

def quote (s : String) : Text := '"' :: s.toList.flatMap escapeChar ++ ['"']

mutual

/-- The text of a value, without any blank between its parts. -/
def render : JsonValue → Text
  | .null => "null".toList
  | .bool b => (if b then "true" else "false").toList
  | .number n => (toString n).toList
  | .string s => quote s
  | .array items => '[' :: renderItems items ++ [']']
  | .object fields => '{' :: renderFields fields ++ ['}']

/-- The items of an array with commas between them. -/
def renderItems : List JsonValue → Text
  | [] => []
  | [v] => render v
  | v :: vs => render v ++ ',' :: renderItems vs

/-- The fields of an object with commas between them. -/
def renderFields : List (String × JsonValue) → Text
  | [] => []
  | [(k, v)] => quote k ++ ':' :: render v
  | (k, v) :: fs => quote k ++ ':' :: render v ++ ',' :: renderFields fs

end

def toText (v : JsonValue) : String := String.ofList v.render

/-- A field that is left out when it has no value. -/
def optional (name : String) (v : Option JsonValue) : List (String × JsonValue) :=
  match v with
  | none => []
  | some v => [(name, v)]

end JsonValue

end Bibliography
