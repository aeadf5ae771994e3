import Bibliography.Database.Error
import Bibliography.NameFormat.Reader
import Bibliography.Style.Builtin
import Bibliography.Style.SyntaxFault
import Bibliography.Style.Value
import Bibliography.Tex.Error

set_option autoImplicit false

/-! # What can go wrong with a style

A fault is the cause for which a style cannot be read, or for which a run of it fails. A command
that fails puts its fault into another one, which tells the command and, inside an iteration, the
entry (`Fault.within`). What is in a command already stays as it is, so that a fault that passes
through several hands tells of the innermost. -/

namespace Bibliography.Style

inductive Wanted where
  | integer
  | string
  /-- A function or a name, to be run later. -/
  | runnable
  /-- A function or a name, to be run now. -/
  | function
  | comparable
  | joinable
  deriving DecidableEq, Repr

def Wanted.words : Wanted → String
  | .integer => "an integer"
  | .string => "a string"
  | .runnable => "a function"
  | .function => "function"
  | .comparable => "two integers or two strings"
  | .joinable => "two strings or two integers"

/-- Why a name cannot be assigned a value. -/
inductive AssignmentFault where
  | wantsInteger (found : ValueKind)
  | wantsString (found : ValueKind)
  /-- A field of the database. -/
  | field
  | function
  /-- The target is no quoted name. -/
  | target (found : ValueKind)
  deriving DecidableEq, Repr

def AssignmentFault.message : AssignmentFault → String
  | .wantsInteger found => "expected an integer, found " ++ found.word
  | .wantsString found => "expected a string, found " ++ found.word
  | .field => "database fields are read-only"
  | .function => "functions cannot be assigned"
  | .target found => "the target must be a quoted name, not a " ++ found.word

/-- What can be wrong with an argument of the right kind. -/
inductive ArgumentFault where
  /-- The result does not fit an integer of 64 bits. -/
  | overflow
  | notOneCharacter (s : Text)
  | noSuchName (index : Int) (names : Text) (count : Nat)
  | notACharacter (code : Int)
  deriving DecidableEq, Repr

def ArgumentFault.message : ArgumentFault → String
  | .overflow => "integer overflow"
  | .notOneCharacter s => "expected a single character, found \"" ++ String.ofList s ++ "\""
  | .noSuchName index names count =>
    "there is no name " ++ toString index ++ " in \"" ++ String.ofList names ++ "\" (" ++
      toString count ++ " names)"
  | .notACharacter code => toString code ++ " is not a character code"

/-- Why a command cannot stand where it does. -/
inductive OrderFault where
  | onlyOnce
  | beforeRead
  | afterRead
  deriving DecidableEq, Repr

def OrderFault.message : OrderFault → String
  | .onlyOnce => "may appear only once"
  | .beforeRead => "must come before READ"
  | .afterRead => "must come after READ"

/-- How deep calls of style functions may be nested. -/
def maxDepth : Nat := 500

inductive Fault where
  /-- The text is no style. -/
  | malformed (fault : SyntaxFault) (span : SourceSpan)
  | invalidNameFormat (pattern : Text) (fault : PatternFault)
  /-- A function took more values than there were. -/
  | stackUnderflow (function : Text)
  | undefinedName (name : Text)
  | duplicateDeclaration (name : Text)
  | typeMismatch (function : Text) (wanted : Wanted) (found : ValueKind)
  /-- Something that belongs to an entry was used outside an iteration. -/
  | noCurrentEntry (function : Text)
  /-- No function is there for the type of an entry, nor for the types without one. -/
  | noHandler (kind : Text)
  | invalidAssignment (name : Text) (fault : AssignmentFault)
  | invalidArgument (function : Text) (fault : ArgumentFault)
  /-- Style functions call each other too deeply. -/
  | recursionLimit (function : Text)
  | outOfOrder (command : String) (fault : OrderFault) (span : SourceSpan)
  /-- The output could not be written, in the words of the writer. -/
  | output (message : String)
  /-- An operation on texts failed in a function. -/
  | text (function : Builtin) (error : Tex.TextError)
  | database (error : DatabaseError)
  /-- A fault of a command and, if it ran a function for an entry, the key of that one. -/
  | inCommand (command : String) (key : Option Text) (span : SourceSpan) (source : Fault)
  deriving Repr

namespace Fault

/-! ## Commands that fail -/

/-- Tells of the command that failed, unless the fault tells of one already. -/
def within (command : String) (key : Option Text) (span : SourceSpan) : Fault → Fault
  | .inCommand command' key' span' source => .inCommand command' key' span' source
  | f => .inCommand command key span f

/-- The fault without the commands that it tells of. -/
def root : Fault → Fault
  | .inCommand _ _ _ source => source.root
  | f => f

/-! ## Wordings -/

def message : Fault → String
  | .malformed fault _ => fault.message
  | .invalidNameFormat pattern fault =>
    "Invalid name format \"" ++ String.ofList pattern ++ "\": " ++ fault.message
  | .stackUnderflow function => String.ofList function ++ ": pop from empty stack"
  | .undefinedName name => "Undefined identifier '" ++ String.ofList name ++ "'"
  | .duplicateDeclaration name => "'" ++ String.ofList name ++ "' is already declared"
  | .typeMismatch function wanted found =>
    String.ofList function ++ ": expected " ++ wanted.words ++ ", found " ++ found.word
  | .noCurrentEntry function => String.ofList function ++ ": no current entry"
  | .noHandler kind => "No function for entry type '" ++ String.ofList kind ++ "'"
  | .invalidAssignment name fault =>
    "Cannot assign to '" ++ String.ofList name ++ "': " ++ fault.message
  | .invalidArgument function fault => String.ofList function ++ ": " ++ fault.message
  | .recursionLimit function =>
    String.ofList function ++ ": function calls nested more than " ++ toString maxDepth ++ " deep"
  | .outOfOrder command fault _ => command ++ ": " ++ fault.message
  | .output message => "Output error: " ++ message
  | .text function error => function.name ++ ": " ++ error.message
  | .database error => error.message
  | .inCommand command none _ source => source.message ++ " (in " ++ command ++ ")"
  | .inCommand command (some key) _ source =>
    source.message ++ " (in " ++ command ++ " for entry '" ++ String.ofList key ++ "')"

def textHeading : Tex.TextError → String × String
  | .invalidCaseMode _ => ("B-1-1", "Invalid Case Mode")
  | .substringStartZero => ("B-1-2", "Invalid Substring Start")
  | .unmatchedBraces _ => ("B-1-3", "Unmatched Braces")

def problemDiagnostic (code title problem : String) (details hints : List String) : Diagnostic where
  severity := .error
  title := title
  code := some code
  problem := some problem
  details := details.map fun d => ⟨.error, d, none⟩
  hints := hints

def whileRunning (command : String) : Option Text → String
  | none => "While running " ++ command
  | some key => "While running " ++ command ++ " for entry '" ++ String.ofList key ++ "'"

/-- A diagnostic with what was running as its last detail. It is about the place of the command
unless it is about another one. -/
def inContext (command : String) (key : Option Text) (span : SourceSpan) (d : Diagnostic) :
    Diagnostic :=
  { d with
    details := d.details ++ [⟨.info, whileRunning command key, some span⟩]
    location := d.location.or (some span) }

def diagnostic : Fault → Diagnostic
  | .malformed fault span => fault.diagnostic span
  | .invalidNameFormat pattern fault =>
    problemDiagnostic "B-3-5" "Invalid Name Format"
      ("Cannot parse name format \"" ++ String.ofList pattern ++ "\"") [fault.message]
      ["Groups look like \x7bff~\x7d, \x7bvv~\x7d, \x7bll\x7d or \x7b, jj\x7d"]
  | .stackUnderflow function =>
    problemDiagnostic "B-4-1" "Stack Underflow"
      (String.ofList function ++ " needs more values than the stack holds") [] []
  | .undefinedName name =>
    problemDiagnostic "B-4-2" "Undefined Identifier"
      ("'" ++ String.ofList name ++ "' is not a built-in, function or variable") []
      ["Declare it with FUNCTION, INTEGERS, STRINGS or ENTRY before use?"]
  | .duplicateDeclaration name =>
    problemDiagnostic "B-4-3" "Duplicate Declaration"
      ("'" ++ String.ofList name ++ "' is already declared") [] []
  | .typeMismatch function wanted found =>
    problemDiagnostic "B-4-4" "Type Mismatch"
      (String.ofList function ++ " expected " ++ wanted.words) ["Found " ++ found.word] []
  | .noCurrentEntry function =>
    problemDiagnostic "B-4-5" "No Current Entry"
      (String.ofList function ++ " can only be used while iterating over entries") []
      ["Call it from a function run by ITERATE or REVERSE?"]
  | .noHandler kind =>
    problemDiagnostic "B-4-6" "No Handler For Entry Type"
      ("There is no function named '" ++ String.ofList kind ++ "'") []
      ["Define a function for this entry type or a default.type function?"]
  | .invalidAssignment name fault =>
    problemDiagnostic "B-4-7" "Invalid Assignment"
      ("Cannot assign to '" ++ String.ofList name ++ "'") [fault.message] []
  | .invalidArgument function fault =>
    problemDiagnostic "B-4-8" "Invalid Argument" ("Bad argument to " ++ String.ofList function)
      [fault.message] []
  | .recursionLimit function =>
    problemDiagnostic "B-4-14" "Recursion Too Deep"
      ("Calling " ++ String.ofList function ++ " nested function calls more than " ++
        toString maxDepth ++ " deep") []
      ["Does the function call itself without a stopping condition?"]
  | .outOfOrder command fault span =>
    { problemDiagnostic "B-4-9" "Command Out Of Order" (command ++ " " ++ fault.message) [] [] with
      location := some span }
  | .output message => problemDiagnostic "B-4-10" "Output Error" message [] []
  | .text function error =>
    problemDiagnostic (textHeading error).1 (textHeading error).2 error.message
      ["Raised by " ++ function.name] []
  | .database error => problemDiagnostic error.code "Database Error" error.message [] []
  | .inCommand command key span source => inContext command key span source.diagnostic

def causes : Fault → List String
  | .text _ error => [error.message]
  | .database (.unreadable path cause) =>
    [(DatabaseError.unreadable path cause).message, cause.message]
  | .database error => [error.message]
  | .inCommand _ _ _ source => source.message :: source.causes
  | _ => []

end Fault

end Bibliography.Style
