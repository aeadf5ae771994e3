import Bibliography.Files.Error
import Bibliography.Files.Path

set_option autoImplicit false

/-! # What can be wrong with a database -/

namespace Bibliography

inductive BibFault where
  /-- No entry type after `@`. -/
  | missingType
  /-- No brace or parenthesis after an entry type. -/
  | missingDelimiter (kind : Text)
  | missingKey (kind : Text)
  | missingName
  /-- Another character than the one that must stand here. -/
  | expected (c : Char)
  /-- Neither a comma nor the closing delimiter after the value of a field. -/
  | missingSeparator (close : Char)
  | unterminatedQuote
  | missingValue
  /-- A group that never closes. -/
  | unclosed (close : Char)
  deriving DecidableEq, Repr

def BibFault.message : BibFault → String
  | .missingType => "expected an entry type after '@'"
  | .missingDelimiter kind => "expected '\x7b' or '(' after @" ++ String.ofList kind
  | .missingKey kind => "missing key in @" ++ String.ofList kind ++ " entry"
  | .missingName => "expected a field name"
  | .expected c => "expected '" ++ String.ofList [c] ++ "'"
  | .missingSeparator close => "expected ',' or '" ++ String.ofList [close] ++ "' after field value"
  | .unterminatedQuote => "unterminated quoted string"
  | .missingValue => "expected a field value"
  | .unclosed close => "missing '" ++ String.ofList [close] ++ "'"

/-- The causes for which a database cannot be built or read. -/
inductive DatabaseError where
  /-- A fault in the text of a database file, and the line where reading stopped. -/
  | malformed (file : Text) (line : Nat) (fault : BibFault)
  /-- A second entry with the same key. -/
  | duplicateKey (key : Text)
  /-- A name with more than two commas. -/
  | invalidName (name : Text)
  /-- A database file that cannot be read. -/
  | unreadable (path : Path) (cause : FileError)
  deriving DecidableEq, Repr

namespace DatabaseError

def message : DatabaseError → String
  | .malformed file line fault =>
    String.ofList file ++ ":" ++ ToString.toString line ++ ": syntax error: " ++ fault.message
  | .duplicateKey key => "repeated entry '" ++ String.ofList key ++ "'"
  | .invalidName name => "too many commas in name '" ++ String.ofList name ++ "'"
  | .unreadable path cause =>
    "cannot read database file " ++ path.toString ++ ": " ++ cause.message

def code : DatabaseError → String
  | .malformed _ _ _ => "B-2-1"
  | .duplicateKey _ => "B-2-2"
  | .invalidName _ => "B-2-3"
  | .unreadable _ _ => "B-2-4"

end DatabaseError

end Bibliography
