import Bibliography.Diagnostic.Basic
import Bibliography.Style.Token

set_option autoImplicit false

/-! # What can be wrong with the text of a style -/

namespace Bibliography.Style

/-- What can be wrong with the text of a style. -/
inductive SyntaxFault where
  /-- A character where a command should start. -/
  | expectedCommand (found : Char)
  /-- A brace that is never closed. -/
  | unbalancedBraces
  /-- A string that does not end on its line. -/
  | unterminatedString
  /-- A quote without a name. -/
  | missingName
  /-- A name that starts with a digit. -/
  | digitName (name : Text)
  /-- A definition whose value is not one string. -/
  | abbreviationValue (name : Text)
  /-- A token in a list of names. -/
  | expectedName (found : Token)
  /-- A list that should hold one name. -/
  | nameCount (command : String) (found : Nat)
  /-- What follows `#` is no integer, or one that is too large. -/
  | invalidInteger (literal : Text)
  | unknownCommand (name : Text)
  | argumentCount (command : Text) (expected found : Nat)
  deriving Repr

namespace SyntaxFault

/-- What a fault says about the text; the last three kinds have wordings of their own. -/
def statement : SyntaxFault → String
  | .expectedCommand found => "expected a command, found '" ++ String.ofList [found] ++ "'"
  | .unbalancedBraces => "unbalanced braces"
  | .unterminatedString => "unterminated string literal"
  | .missingName => "expected a name after '"
  | .digitName name =>
    let name := String.ofList name
    "identifiers cannot start with a digit: '" ++ name ++ "' (integers are written #" ++ name ++ ")"
  | .abbreviationValue name =>
    "MACRO \x7b" ++ String.ofList name ++ "\x7d needs one string literal as its value"
  | .expectedName found => "expected an identifier, found " ++ String.ofList found.text
  | .nameCount command found => command ++ " needs exactly one name, found " ++ toString found
  | .invalidInteger literal => "'" ++ String.ofList literal ++ "' is not a valid integer literal"
  | .unknownCommand name => "'" ++ String.ofList name ++ "' is not a style command"
  | .argumentCount command expected found =>
    String.ofList command ++ " takes " ++ toString expected ++ " braced argument(s), found " ++
      toString found

def message : SyntaxFault → String
  | .invalidInteger literal => "Invalid integer literal '" ++ String.ofList literal ++ "'"
  | .unknownCommand name => "Unknown command '" ++ String.ofList name ++ "'"
  | .argumentCount command expected found =>
    String.ofList command ++ " takes " ++ toString expected ++ " argument(s), found " ++
      toString found
  | fault => "Syntax error: " ++ fault.statement

def heading : SyntaxFault → String × String
  | .invalidInteger _ => ("B-3-2", "Invalid Integer Literal")
  | .unknownCommand _ => ("B-3-3", "Unknown Command")
  | .argumentCount _ _ _ => ("B-3-4", "Wrong Argument Count")
  | _ => ("B-3-1", "Style Syntax Error")

def diagnostic (fault : SyntaxFault) (span : SourceSpan) : Diagnostic where
  severity := .error
  title := fault.heading.2
  code := some fault.heading.1
  problem := some fault.statement
  details := match fault with
    | .unknownCommand _ => [⟨.error, "Commands are ENTRY, EXECUTE, FUNCTION, INTEGERS, ITERATE, " ++
        "MACRO, READ, REVERSE, SORT and STRINGS", none⟩]
    | _ => []
  hints := match fault with
    | .invalidInteger _ => ["Write integers as #123 or #-4?"]
    | _ => []
  location := some span

end SyntaxFault

end Bibliography.Style
