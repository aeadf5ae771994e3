set_option autoImplicit false

/-! # Name formats

A pattern such as `{vv~}{ll}{, jj}{, f.}` says how a person's name is printed: literal text and
groups, each of which prints one part of the name. -/

namespace Bibliography

/-- The parts of a name that a group can print. -/
inductive NamePart where
  /-- First and middle names. -/
  | given
  | prelast
  | last
  | lineage
  deriving DecidableEq, Repr

/-- What follows a group, by the ties at its end. -/
inductive GroupTie where
  /-- No tie: nothing follows. -/
  | absent
  /-- One tie: a tie after a short group, a space after a longer one. -/
  | discretionary
  /-- Two ties or more: a tie. -/
  | forced
  deriving DecidableEq, Repr

/-- A group of a name format. It prints nothing for a person without the part. -/
structure NameGroup where
  /-- Text printed before the part. -/
  before : List Char
  part : NamePart
  /-- Whether each word is cut to its first letter. -/
  abbreviated : Bool
  /-- What stands between words in place of the usual spaces and ties. -/
  delimiter : Option (List Char)
  /-- Text printed after the part, without the ties at its end. -/
  after : List Char
  tie : GroupTie
  deriving DecidableEq, Repr

inductive NameElement where
  | literal (s : List Char)
  | group (g : NameGroup)
  deriving DecidableEq, Repr

abbrev NameFormat := List NameElement

end Bibliography
