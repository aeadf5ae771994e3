import Bibliography.Text.Basic

set_option autoImplicit false

/-! # The items of a database file

A database file is a row of items between any other text. A value is a row of pieces; a name
among them stands for what it abbreviates, so the values of a file are known only when its
definitions are. -/

namespace Bibliography

inductive BibPiece where
  /-- Text between quotes or braces, or a number. -/
  | text (s : Text)
  /-- A name that stands for a text, and the line it is read on. -/
  | name (s : Text) (line : Nat)
  deriving DecidableEq, Repr

abbrev BibValue := List BibPiece

/-- A name and its value: a field of an entry, or a definition. -/
structure BibField where
  name : Text
  value : BibValue
  deriving DecidableEq, Repr

inductive BibItem where
  | preamble (value : BibValue)
  /-- Definitions of abbreviations. -/
  | definitions (fields : List BibField)
  | entry (kind key : Text) (fields : List BibField)
  deriving DecidableEq, Repr

end Bibliography
