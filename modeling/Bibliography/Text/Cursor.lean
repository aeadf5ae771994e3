import Bibliography.Text.Basic

set_option autoImplicit false

/-! # Cursors

A place in a text that is being read: what is left of it, the number of bytes before it, and the
number of its line. -/

namespace Bibliography

/-- What is left to read, and where it starts. -/
structure Cursor where
  rest : Text
  /-- The number of bytes before. -/
  offset : Nat
  /-- The number of the line, counted from 1. -/
  line : Nat
  deriving DecidableEq, Repr

namespace Cursor

def start (s : Text) : Cursor := ⟨s, 0, 1⟩

/-- The cursor after a text that stood before `rest`. -/
def past (c : Cursor) (taken rest : Text) : Cursor :=
  ⟨rest, c.offset + taken.size, c.line + taken.count '\n'⟩

def head? (c : Cursor) : Option Char := c.rest.head?

def next (c : Cursor) : Cursor := c.past (c.rest.take 1) (c.rest.drop 1)

/-- The characters up to the first that does not satisfy `p`. -/
def takeWhile (p : Char → Bool) (c : Cursor) : Text × Cursor :=
  let taken := c.rest.takeWhile p
  (taken, c.past taken (c.rest.dropWhile p))

def skipSpace (c : Cursor) : Cursor := (c.takeWhile isAsciiSpace).2

def atEnd (c : Cursor) : Cursor := c.past c.rest []

def length (c : Cursor) : Nat := c.rest.length

theorem length_next_le (c : Cursor) : c.next.length ≤ c.length := by
  simp [next, past, length]

theorem length_next_lt {c : Cursor} {ch : Char} (h : c.head? = some ch) :
    c.next.length < c.length := by
  obtain ⟨rest, offset, line⟩ := c
  cases rest with
  | nil => simp [head?] at h
  | cons d rest => simp [next, past, length]

theorem length_takeWhile_le (p : Char → Bool) (c : Cursor) : (c.takeWhile p).2.length ≤ c.length :=
  (List.dropWhile_sublist _).length_le

theorem length_skipSpace_le (c : Cursor) : c.skipSpace.length ≤ c.length :=
  length_takeWhile_le _ c

/-- Taking characters that are there leaves fewer. -/
theorem length_takeWhile_lt {p : Char → Bool} {c : Cursor} (h : (c.takeWhile p).1 ≠ []) :
    (c.takeWhile p).2.length < c.length := by
  obtain ⟨rest, offset, line⟩ := c
  cases rest with
  | nil => simp [takeWhile] at h
  | cons d rest =>
    by_cases hd : p d
    · simpa [takeWhile, past, length, hd] using
        Nat.lt_succ_of_le (List.dropWhile_sublist (p := p) (l := rest)).length_le
    · simp [takeWhile, hd] at h

end Cursor

end Bibliography
