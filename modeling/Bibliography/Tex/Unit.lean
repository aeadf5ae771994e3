import Bibliography.Text.Basic

set_option autoImplicit false

/-! # The units of a TeX text

Braces protect text in a bibliography, and a brace group that opens at brace level 0 with a
backslash (an accented letter, a ligature) counts as one *special character*. Every operation on
field values is a walk over the units that `scan` finds: braces, characters and special
characters, each with the brace level it sits at.

The scan is an automaton (`Mode`), so it composes: the units of a text that ends in
`Mode.plain 0` do not depend on what follows. Unbalanced text is no error here. A closing brace
at level 0 leaves the level at 0, and a group may run to the end of the text. -/

namespace Bibliography.Tex

inductive UnitKind where
  /-- An opening brace. -/
  | opening
  /-- A closing brace. -/
  | closing
  /-- A character that is no brace. -/
  | char (c : Char)
  /-- A special character: its whole group, braces included. -/
  | special (raw : Text)
  deriving DecidableEq, Repr

/-- A unit and the brace level it sits at. Braces report the level they open or close into;
special characters are always at level 1. -/
structure TexUnit where
  kind : UnitKind
  level : Nat
  deriving DecidableEq, Repr

namespace TexUnit

def text (u : TexUnit) : Text :=
  match u.kind with
  | .opening => ['{']
  | .closing => ['}']
  | .char c => [c]
  | .special raw => raw

def isBrace (u : TexUnit) : Bool :=
  match u.kind with
  | .opening | .closing => true
  | _ => false

def texts (us : List TexUnit) : Text := us.flatMap text

end TexUnit

/-! ## The automaton -/

/-- Where the scan stands. -/
inductive Mode where
  /-- Outside special characters, at a brace level. -/
  | plain (level : Nat)
  /-- Inside a special character: what was read of it, last character first, and the number of
  its braces that are open. -/
  | special (read : Text) (depth : Nat)
  deriving DecidableEq, Repr

def Mode.level : Mode → Nat
  | .plain level => level
  | .special _ depth => depth

/-- Reads the character `c`, with the character that follows it at hand: the mode after it, and
the unit that it completes. -/
def Mode.step (next : Option Char) (c : Char) : Mode → Mode × Option TexUnit
  | .plain level =>
    if c = '{' then
      if level = 0 ∧ next = some '\\' then (.special ['{'] 1, none)
      else (.plain (level + 1), some ⟨.opening, level + 1⟩)
    else if c = '}' then (.plain (level - 1), some ⟨.closing, level - 1⟩)
    else (.plain level, some ⟨.char c, level⟩)
  | .special read depth =>
    if c = '{' then (.special (c :: read) (depth + 1), none)
    else if c = '}' then
      if depth ≤ 1 then (.plain 0, some ⟨.special (c :: read).reverse, 1⟩)
      else (.special (c :: read) (depth - 1), none)
    else (.special (c :: read) depth, none)

/-- The units of a text that is read from a given mode. A special character that the text leaves
open is its last unit. -/
def scanFrom : Mode → Text → List TexUnit
  | .plain _, [] => []
  | .special read _, [] => [⟨.special read.reverse, 1⟩]
  | mode, c :: rest =>
    match mode.step rest.head? c with
    | (mode', none) => scanFrom mode' rest
    | (mode', some u) => u :: scanFrom mode' rest

def modeAfter : Mode → Text → Mode
  | mode, [] => mode
  | mode, c :: rest => modeAfter (mode.step rest.head? c).1 rest

def scan (s : Text) : List TexUnit := scanFrom (.plain 0) s

/-- The brace level at the end of the text: opening less closing braces, a closing brace at
level 0 not counted. -/
def depth (s : Text) : Nat := (modeAfter (.plain 0) s).level

/-! ## Places of units -/

/-- A unit and the bytes it takes up in the text. -/
structure PlacedUnit where
  unit : TexUnit
  start : Nat
  stop : Nat
  deriving DecidableEq, Repr

/-- The places of consecutive units of which the first starts at byte `start`. -/
def place (start : Nat) : List TexUnit → List PlacedUnit
  | [] => []
  | u :: us => ⟨u, start, start + u.text.size⟩ :: place (start + u.text.size) us

def scanPlaced (s : Text) : List PlacedUnit := place 0 (scan s)

end Bibliography.Tex
