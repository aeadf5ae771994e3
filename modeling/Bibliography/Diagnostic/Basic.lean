import Bibliography.Diagnostic.Catalog
import Bibliography.Source.Location

set_option autoImplicit false

/-! # Diagnostics

A diagnostic tells the user of an error, of a doubt or of a fact: a title with a code, what the
problem is, details about it, and hints at what to do. -/

namespace Bibliography

/-- How grave a diagnostic is. -/
inductive Severity where
  /-- The run cannot be completed. -/
  | error
  /-- Something is doubtful. -/
  | warning
  /-- A fact worth telling. -/
  | info
  deriving DecidableEq, Repr

def Severity.label : Severity → String
  | .error => "Error"
  | .warning => "Warning"
  | .info => "Info"

def Severity.name : Severity → String
  | .error => "error"
  | .warning => "warning"
  | .info => "info"

/-- What a detail says. -/
inductive DetailKind where
  /-- What is wrong. -/
  | error
  /-- What was going on. -/
  | info
  /-- Anything else. -/
  | note
  deriving DecidableEq, Repr

def DetailKind.bullet : DetailKind → String
  | .error => "✖"
  | .info => "ℹ"
  | .note => "•"

def DetailKind.name : DetailKind → String
  | .error => "error"
  | .info => "info"
  | .note => "note"

/-- A detail of a diagnostic, with the place it is about, if there is one. -/
structure Detail where
  kind : DetailKind
  content : String
  location : Option SourceSpan := none
  deriving DecidableEq, Repr

structure Diagnostic where
  severity : Severity
  title : String
  code : Option String := none
  problem : Option String := none
  details : List Detail := []
  hints : List String := []
  location : Option SourceSpan := none
  deriving DecidableEq, Repr

namespace Diagnostic

def docsUrl? (d : Diagnostic) : Option String := d.code.bind Catalog.docsUrl?

def subsystem? (d : Diagnostic) : Option String := d.code.bind Catalog.subsystem?

def count (s : Severity) (ds : List Diagnostic) : Nat := ds.countP (·.severity == s)

end Diagnostic

end Bibliography
