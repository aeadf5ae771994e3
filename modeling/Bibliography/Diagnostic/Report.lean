import Bibliography.Diagnostic.Basic
import Bibliography.Source.Registry

set_option autoImplicit false

/-! # Showing diagnostics

A diagnostic is shown as lines of text or as JSON. When it has a location in a source whose
content is known, an excerpt stands in place of the first lines: a heading, the place if there are
characters to mark, and the details that are about no place of their own. -/

namespace Bibliography

/-! ## Places for readers -/

/-- Characters that end a line for the eye. -/
def isLineEnd (c : Char) : Bool :=
  c == '\n' || c == '\r' || c == '\x0b' || c == '\x0c' || c.toNat == 0x85 || c.toNat == 0x2028 ||
    c.toNat == 0x2029

/-- The line and the column of the character with a given number, when counting starts at
`line` and `column`. A carriage return and a line feed end one line together, and the end of the
text belongs to the last line that has characters. -/
def Text.lineColumnFrom (line column : Nat) : Nat → Text → Nat × Nat
  | 0, _ => (line, column)
  | _, [] => (line, column)
  | n + 1, c :: rest =>
    if isLineEnd c ∧ ¬ (c = '\r' ∧ rest.head? = some '\n') ∧ rest ≠ [] then
      lineColumnFrom (line + 1) 1 n rest
    else lineColumnFrom line (column + 1) n rest

/-- The line and the column, counted from 1, of the character with a given number, if the text
reaches that far. An empty text has no lines. -/
def Text.lineColumn? (s : Text) (n : Nat) : Option (Nat × Nat) :=
  if s = [] ∨ s.length < n then none else some (s.lineColumnFrom 1 1 n)

/-- The number of the character at an offset; an offset inside a character, or past the end,
counts as it is. -/
def Text.charIndex (s : Text) (offset : Nat) : Nat :=
  let before := s.takeBytes offset
  if before.size = offset then before.length else offset

/-- Whether the text has the characters of a range, of which at least one is marked. The place
after the last character can be marked as well. -/
def Text.canMark (s : Text) (span : SourceSpan) : Bool :=
  let first := s.charIndex span.start.offset
  let last := max first (s.charIndex span.stop.offset - 1)
  (s.lineColumn? last).isSome

/-! ## Excerpts -/

structure Excerpt where
  heading : String
  /-- The place, as `path:line:column`, when there are characters to mark. -/
  place : Option String
  /-- The details and hints below. -/
  after : List String
  deriving DecidableEq, Repr

namespace Detail

def line (d : Detail) : String := d.kind.bullet ++ " " ++ d.content

def toJson (d : Detail) : JsonValue :=
  .object ([("content", .string d.content), ("kind", .string d.kind.name)] ++
    JsonValue.optional "location" (d.location.map SourceSpan.toJson))

end Detail

namespace Diagnostic

/-- The word for a severity above an excerpt. -/
def excerptLabel : Severity → String
  | .error => "Error"
  | .warning => "Warning"
  | .info => "Advice"

def hintLines (d : Diagnostic) : List String := d.hints.map ("? " ++ ·)

/-- The ranges of a source that a diagnostic is about: its own, and those of its details. -/
def spansIn (d : Diagnostic) (file : Nat) : List SourceSpan :=
  (d.location.toList ++ d.details.filterMap (·.location)).filter (·.file == file)

/-- The line and the column at which a range starts. -/
def shownPlace (content : Text) (span : SourceSpan) : String :=
  match content.lineColumn? (content.charIndex span.start.offset) with
  | some (line, column) => toString line ++ ":" ++ toString column
  | none => "?:?"

/-- The excerpt of a diagnostic, if its location is in a source with known content. -/
def excerpt? (d : Diagnostic) (sources : SourceRegistry) : Option Excerpt := do
  let span ← d.location
  let file ← sources.file? span.file
  let content ← file.content
  let place := String.ofList file.path ++ ":" ++ shownPlace content span
  let title := match d.code with
    | some code => "[" ++ code ++ "] " ++ d.title
    | none => d.title
  return {
    heading := excerptLabel d.severity ++ ": " ++ title
    place := if (d.spansIn span.file).any content.canMark then some place else none
    after := (d.details.filter (·.location.isNone)).map Detail.line ++ d.hintLines }

def plainLines (d : Diagnostic) : List String :=
  let title := match d.code with
    | some code => d.severity.label ++ " [" ++ code ++ "]: " ++ d.title
    | none => d.severity.label ++ ": " ++ d.title
  title :: d.problem.toList ++ d.details.map Detail.line ++ d.hintLines

def lines (d : Diagnostic) (sources : SourceRegistry) : List String :=
  match d.excerpt? sources with
  | some e =>
    match e.place with
    | some place => e.heading :: ("  at " ++ place) :: d.problem.toList ++ e.after
    | none => e.heading :: e.after
  | none => d.plainLines

/-- Lines as text, each with its newline. -/
def unlines (ls : List String) : String := String.join (ls.map (· ++ "\n"))

/-- The diagnostic as JSON, with its fields in alphabetical order. -/
def toJson (d : Diagnostic) : JsonValue :=
  .object (JsonValue.optional "code" (d.code.map .string) ++
    JsonValue.optional "details"
      (if d.details.isEmpty then none else some (.array (d.details.map Detail.toJson))) ++
    JsonValue.optional "hints"
      (if d.hints.isEmpty then none else some (.array (d.hints.map .string))) ++
    [("kind", .string d.severity.name)] ++
    JsonValue.optional "location" (d.location.map SourceSpan.toJson) ++
    JsonValue.optional "problem" (d.problem.map .string) ++
    JsonValue.optional "subsystem" (d.subsystem?.map .string) ++
    [("title", .string d.title)])

end Diagnostic

end Bibliography
