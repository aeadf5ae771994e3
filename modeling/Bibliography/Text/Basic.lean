import Bibliography.Unicode.CaseMap
import Bibliography.Unicode.Property

set_option autoImplicit false

/-! # Texts

Everything a bibliography is made of — field values, names, style programs, output lines — is a
list of characters. Positions in a file are counted in UTF-8 bytes (`Text.size`); all other
counts are in characters. -/

namespace Bibliography

abbrev Text := List Char

namespace Text

/-- The number of bytes of the text in UTF-8. -/
def size : Text → Nat
  | [] => 0
  | c :: s => c.utf8Size + size s

theorem size_nil : size [] = 0 := rfl

theorem size_cons (c : Char) (s : Text) : size (c :: s) = c.utf8Size + size s := rfl

theorem size_append (s t : Text) : size (s ++ t) = size s + size t := by
  induction s with
  | nil => simp [size]
  | cons c s ih =>
    rw [List.cons_append, size_cons, size_cons, ih]
    omega

/-- A text that is not empty has bytes. -/
theorem size_pos {s : Text} (h : s ≠ []) : 0 < size s := by
  obtain ⟨c, s, rfl⟩ := List.exists_cons_of_ne_nil h
  rw [size_cons]
  exact Nat.add_pos_left c.utf8Size_pos _

/-- What is left of a list starts with an element that does not satisfy `p`. -/
theorem eq_false_of_mem_head?_dropWhile {α : Type} {p : α → Bool} {l : List α} {a : α}
    (h : a ∈ (l.dropWhile p).head?) : p a = false := by
  have hhead := List.head?_dropWhile_not p l
  rw [Option.mem_def.1 h] at hhead
  simpa using hhead

/-! ## White space at the ends -/

def trimStart (s : Text) : Text := s.dropWhile Unicode.isWhiteSpace

def trimEnd (s : Text) : Text := (trimStart s.reverse).reverse

def trim (s : Text) : Text := trimEnd (trimStart s)

def isBlank (s : Text) : Bool := s.all Unicode.isWhiteSpace

/-! ## Parts -/

/-- The parts of the text between the characters that satisfy `p`; a text without any is its own
single part. -/
def splitWhere (p : Char → Bool) : Text → List Text
  | [] => [[]]
  | c :: rest =>
    match splitWhere p rest with
    | [] => [[]]
    | part :: parts => if p c then [] :: part :: parts else (c :: part) :: parts

/-- The lines of the text: its parts between newlines. -/
def lines (s : Text) : List Text := splitWhere (· == '\n') s

def join (sep : Text) : List Text → Text
  | [] => []
  | [part] => part
  | part :: parts => part ++ sep ++ join sep parts

/-! ## Comparison -/

/-- The text with its ASCII capitals in lower case; no other character changes. -/
def asciiLower (s : Text) : Text := s.map Char.toLower

/-- Equality that does not look at the case of ASCII letters. -/
def sameIgnoringAsciiCase (s t : Text) : Bool := asciiLower s == asciiLower t

/-- The text that two spellings of a key or name share. -/
def fold (s : Text) : Text := Unicode.foldCase s

/-- The order of texts by code points, the shorter first when one continues the other. -/
def le : Text → Text → Bool
  | [], _ => true
  | _ :: _, [] => false
  | c :: s, d :: t => if c = d then le s t else decide (c.toNat < d.toNat)

end Text

/-- ASCII white space: space, tab, line feed, form feed and carriage return. -/
def isAsciiSpace (c : Char) : Bool :=
  c == ' ' || c == '\t' || c == '\n' || c == '\x0c' || c == '\r'

end Bibliography
