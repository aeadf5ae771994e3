import Bibliography.Json

set_option autoImplicit false

/-! # Locations in a source text

A place in a source is a byte offset together with the row and the column it falls on, both
counted from 0, the column in characters. An offset inside a character has the row and column of
that character. -/

namespace Bibliography

/-- A place in a source text. -/
structure Location where
  offset : Nat
  row : Nat
  column : Nat
  deriving DecidableEq, Repr

/-- The longest start of a text that has at most `n` bytes. -/
def Text.takeBytes : Nat → Text → Text
  | _, [] => []
  | n, c :: rest => if c.utf8Size ≤ n then c :: takeBytes (n - c.utf8Size) rest else []

namespace Location

/-- The place at the end of a text, as far as rows and columns go. -/
def after (offset : Nat) (before : Text) : Location where
  offset := offset
  row := before.count '\n'
  column := (before.reverse.takeWhile (· ≠ '\n')).length

/-- The place of an offset, unless it is past the end of the source. -/
def ofOffset? (source : Text) (offset : Nat) : Option Location :=
  if source.size < offset then none else some (after offset (source.takeBytes offset))

/-- The place after a character. -/
def past (l : Location) (c : Char) : Location :=
  if c = '\n' then ⟨l.offset + c.utf8Size, l.row + 1, 0⟩
  else ⟨l.offset + c.utf8Size, l.row, l.column + 1⟩

/-- The place after at most `n` more bytes of a text, and what follows there. -/
def advance : Nat → Location → Text → Location × Text
  | _, l, [] => (l, [])
  | n, l, c :: rest =>
    if c.utf8Size ≤ n then advance (n - c.utf8Size) (l.past c) rest else (l, c :: rest)

/-- An offset whose row and column are not known. -/
def bare (offset : Nat) : Location := ⟨offset, 0, 0⟩

def toJson (l : Location) : JsonValue :=
  .object [("column", .number l.column), ("offset", .number l.offset), ("row", .number l.row)]

end Location

/-- A range of bytes in one of the sources of a run. -/
structure SourceSpan where
  /-- The number of the source. -/
  file : Nat
  start : Location
  stop : Location
  deriving DecidableEq, Repr

namespace SourceSpan

/-- The range between two offsets of a source. An offset past its end gets no row and column. -/
def ofOffsets (file start stop : Nat) (source : Text) : SourceSpan where
  file := file
  start := (Location.ofOffset? source start).getD (.bare start)
  stop := (Location.ofOffset? source stop).getD (.bare stop)

/-- The line and the column of the start, counted from 1. -/
def lineColumn (s : SourceSpan) : Nat × Nat := (s.start.row + 1, s.start.column + 1)

def length (s : SourceSpan) : Nat := s.stop.offset - s.start.offset

def toJson (s : SourceSpan) : JsonValue :=
  .object [("file_id", .number s.file),
    ("range", .object [("end", s.stop.toJson), ("start", s.start.toJson)])]

end SourceSpan

end Bibliography
