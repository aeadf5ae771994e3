import Bibliography.Toml.Scalar

set_option autoImplicit false

/-! # Reading TOML

A document is read line by line: a header opens the table into which the keys after it are set.
Values are nested at most `maxDepth` deep, and keys have at most as many parts. Fuel counts the
items of a list or the lines of a document; the number of characters is always enough. -/

namespace Bibliography.Toml

/-- How deep arrays and tables can be nested, and how many parts a key can have. -/
def maxDepth : Nat := 79

/-! ## White space -/

def skipBlanks (s : Text) : Text := s.dropWhile isBlank

/-- The text without the blanks, line ends and comments at its start. -/
def skipLines (s : Text) : Text :=
  match s with
  | [] => []
  | c :: rest =>
    if isBlank c ∨ c = '\n' ∨ c = '\r' ∧ rest.head? = some '\n' then skipLines rest
    else if c = '#' then skipLines (rest.dropWhile isTextChar)
    else c :: rest
termination_by s.length
decreasing_by
  · exact Nat.lt_succ_self _
  · exact Nat.lt_succ_of_le (List.dropWhile_sublist _).length_le

/-- What follows the end of a line, before which there can be a comment. -/
def afterLine? (s : Text) : Option Text :=
  match skipBlanks s with
  | [] => some []
  | '#' :: rest =>
    match rest.dropWhile isTextChar with
    | [] => some []
    | rest => afterLineEnd? rest
  | rest => afterLineEnd? rest

/-! ## Keys -/

def isKeyChar (c : Char) : Bool := c.isAlphanum || c == '_' || c == '-'

def takeKeyPart : Text → Option (Text × Text)
  | '"' :: rest => takeLine '"' rest
  | '\'' :: rest => takeLine '\'' rest
  | s =>
    if (s.takeWhile isKeyChar).isEmpty then none
    else some (s.takeWhile isKeyChar, s.dropWhile isKeyChar)

/-- A key of at most the given number of parts, and what follows it and the blanks behind it. -/
def takeKey : Nat → Text → Option (List Text × Text)
  | 0, _ => none
  | parts + 1, s => do
    let (part, rest) ← takeKeyPart (skipBlanks s)
    match skipBlanks rest with
    | '.' :: rest => do
      let (more, rest) ← takeKey parts rest
      return (part :: more, rest)
    | rest => return ([part], rest)

/-! ## Values -/

/-- The items of an array up to its bracket, and what follows that. `item` reads an item. -/
def takeItems (item : Text → Option (Value × Text)) : Nat → Text → Option (List Value × Text)
  | 0, _ => none
  | fuel + 1, s =>
    match skipLines s with
    | ']' :: rest => some ([], rest)
    | s => do
      let (v, rest) ← item s
      match skipLines rest with
      | ',' :: rest => do
        let (vs, rest) ← takeItems item fuel rest
        return (v :: vs, rest)
      | ']' :: rest => return ([v], rest)
      | _ => none

/-- A key, an equals sign and a value, and what follows them. `value` reads the value. -/
def takeField (value : Text → Option (Value × Text)) (s : Text) :
    Option ((List Text × Value) × Text) := do
  match ← takeKey maxDepth s with
  | (key, '=' :: rest) => do
    let (v, rest) ← value (skipBlanks rest)
    return ((key, v), rest)
  | _ => none

/-- The fields of a table up to its brace, and what follows that. `value` reads a value. -/
def takeFields (value : Text → Option (Value × Text)) :
    Nat → Document → Text → Option (Document × Text)
  | 0, _, _ => none
  | fuel + 1, d, s => do
    let ((key, v), rest) ← takeField value s
    let d ← d.assign v key
    match skipBlanks rest with
    | ',' :: rest => takeFields value fuel d rest
    | '}' :: rest => return (d, rest)
    | _ => none

/-- The value at the start of a text, and what follows it. Arrays and tables may be nested as deep
as the given number says. -/
def takeValue : Nat → Text → Option (Value × Text)
  | _, '"' :: rest => (takeString '"' rest).map fun r => (.string r.1, r.2)
  | _, '\'' :: rest => (takeString '\'' rest).map fun r => (.string r.1, r.2)
  | depth + 1, '[' :: rest =>
    (takeItems (takeValue depth) (rest.length + 1) rest).map fun r => (.array r.1, r.2)
  | depth + 1, '{' :: rest =>
    match skipBlanks rest with
    | '}' :: rest => some (.table .inline [], rest)
    | s =>
      (takeFields (takeValue depth) (s.length + 1) [] s).map fun r => (.table .inline r.1, r.2)
  | _, s => (ofWord? (takeWord s).1).map fun v => (v, (takeWord s).2)

/-! ## Documents -/

/-- Reads lines into a document, below a header. -/
def takeLines : Nat → List Text → Document → Text → Option Document
  | 0, _, _, _ => none
  | fuel + 1, header, d, s =>
    match skipLines s with
    | [] => some d
    | '[' :: rest => do
      match ← takeKey maxDepth rest with
      | (path, ']' :: rest) => do takeLines fuel path (← d.openTable path) (← afterLine? rest)
      | _ => none
    | s => do
      let ((key, v), rest) ← takeField (takeValue maxDepth) s
      takeLines fuel header (← d.assignIn v key header) (← afterLine? rest)

/-- The document that a text writes. A byte order mark in front is dropped. -/
def Document.ofText? (s : Text) : Option Document :=
  takeLines (s.length + 1) [] [] (if s.head? = some '\uFEFF' then s.drop 1 else s)

end Bibliography.Toml
