import Bibliography.Tex.Unit

set_option autoImplicit false

/-! # Inside a special character

The group of a special character is a row of braces, control sequences and characters. A control
sequence is a backslash with a run of ASCII letters, or with one other character. A few control
sequences name letters of their own (`isForeignLetter`); all others are accents or font changes,
which the operations on texts keep or drop whole. -/

namespace Bibliography.Tex

inductive SpecialPiece where
  /-- A brace of the group, the outer two included. -/
  | brace (c : Char)
  /-- A control sequence; its name is what follows the backslash. -/
  | command (name : Text)
  | char (c : Char)
  deriving DecidableEq, Repr

def SpecialPiece.text : SpecialPiece → Text
  | .brace c => [c]
  | .command name => '\\' :: name
  | .char c => [c]

/-- ASCII letters, which may stand in the name of a control sequence. -/
def isCommandLetter (c : Char) : Bool := c.isAlpha

/-- The pieces of a text that is read while the name `name` of a control sequence is open (last
letter first), or while none is. -/
def piecesFrom : Option Text → Text → List SpecialPiece
  | none, [] => []
  | some name, [] => [.command name.reverse]
  | none, c :: rest =>
    if c = '\\' then piecesFrom (some []) rest
    else (if c = '{' ∨ c = '}' then SpecialPiece.brace c else .char c) :: piecesFrom none rest
  | some name, c :: rest =>
    if isCommandLetter c then piecesFrom (some (c :: name)) rest
    else if name = [] then .command [c] :: piecesFrom none rest
    else if c = '\\' then .command name.reverse :: piecesFrom (some []) rest
    else .command name.reverse ::
      (if c = '{' ∨ c = '}' then SpecialPiece.brace c else .char c) :: piecesFrom none rest

def specialPieces (raw : Text) : List SpecialPiece := piecesFrom none raw

/-- The control sequences that stand for a letter of their own. -/
def foreignLetters : List Text :=
  ["i", "j", "oe", "OE", "ae", "AE", "aa", "AA", "o", "O", "l", "L", "ss"].map String.toList

def isForeignLetter (name : Text) : Bool := foreignLetters.contains name

end Bibliography.Tex
