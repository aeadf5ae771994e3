import Bibliography.Source.Location
import Bibliography.Style.Token

set_option autoImplicit false

/-! # Commands

A style is a row of commands. The first kinds declare names and define functions; the others
read the database, run functions and sort the entries. -/

namespace Bibliography.Style

inductive Command where
  /-- The fields, integer variables and string variables of every entry. -/
  | entry (fields integers strings : List Text)
  /-- Global integer variables. -/
  | integers (names : List Text)
  /-- Global string variables. -/
  | strings (names : List Text)
  | function (name : Text) (body : List Token)
  /-- An abbreviation for the values of the database. -/
  | abbreviation (name value : Text)
  /-- Reads the database. -/
  | read
  /-- Runs a function once. -/
  | execute (name : Text)
  /-- Runs a function for every entry. -/
  | iterate (name : Text)
  /-- Runs a function for every entry, the last one first. -/
  | reverse (name : Text)
  /-- Sorts the entries. -/
  | sort
  deriving Repr

def Command.word : Command → String
  | .entry _ _ _ => "ENTRY"
  | .integers _ => "INTEGERS"
  | .strings _ => "STRINGS"
  | .function _ _ => "FUNCTION"
  | .abbreviation _ _ => "MACRO"
  | .read => "READ"
  | .execute _ => "EXECUTE"
  | .iterate _ => "ITERATE"
  | .reverse _ => "REVERSE"
  | .sort => "SORT"

structure LocatedCommand where
  command : Command
  span : SourceSpan
  deriving Repr

abbrev Program := List LocatedCommand

end Bibliography.Style
