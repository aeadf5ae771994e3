import Bibliography.Files.Access
import Bibliography.Style.Options
import Bibliography.Toml.Reader

set_option autoImplicit false

/-! # Configurations

A configuration names directories in which styles are looked for, and sets options. It is written
in TOML, with the options in a table `bibliography`. Keys that mean nothing are refused. -/

namespace Bibliography

structure Configuration where
  styleDirectories : List Path := []
  options : Style.Options := {}
  deriving DecidableEq, Repr

namespace Configuration

open Toml (Value Document)

/-! ## Values -/

def natural? : Value → Option Nat
  | .integer n => if 0 ≤ n then some n.toNat else none
  | _ => none

def boolean? : Value → Option Bool
  | .boolean b => some b
  | _ => none

def text? : Value → Option Text
  | .string s => some s
  | _ => none

def texts? : Value → Option (List Text)
  | .array items => items.mapM text?
  | _ => none

def orderOfName? (name : Text) : Option Style.CrossrefOrder :=
  if name = "sorted".toList then some .sorted
  else if name = "first-reference".toList then some .firstReference
  else none

/-- An order: its name, alone or as the single key of a table, with nothing in it. -/
def order? : Value → Option Style.CrossrefOrder
  | .string name | .table _ [(name, .table _ [])] | .table _ [(name, .array [])] =>
    orderOfName? name
  | _ => none

/-! ## Options -/

/-- The keys of the options, in the order in which a list gives their values. -/
def optionNames : List String :=
  ["min-crossrefs", "max-line-width", "crossref-order", "check-output-braces"]

def setOption (o : Style.Options) (name : String) (v : Value) : Option Style.Options :=
  match name with
  | "min-crossrefs" => (natural? v).map fun n => { o with minCrossrefs := n }
  | "max-line-width" => (natural? v).map fun n => { o with maxLineWidth := n }
  | "crossref-order" => (order? v).map fun c => { o with crossrefOrder := c }
  | "check-output-braces" => (boolean? v).map fun b => { o with checkOutputBraces := b }
  | _ => none

def options? : Value → Option Style.Options
  | .table _ fields => fields.foldlM (fun o f => setOption o (String.ofList f.1) f.2) {}
  | .array items => (optionNames.zip items).foldlM (fun o f => setOption o f.1 f.2) {}
  | _ => none

/-! ## Documents -/

/-- Sets what a key of a document stands for; `base` is the directory of the file. -/
def set (base : Path) (c : Configuration) (key : Text) (v : Value) : Option Configuration :=
  match String.ofList key with
  | "bst-dirs" =>
    (texts? v).map fun dirs => { c with styleDirectories := dirs.map (Path.join base) }
  | "bibliography" => (options? v).map fun o => { c with options := o }
  | _ => none

def ofText? (s : Text) (base : Path) : Option Configuration := do
  let d ← Document.ofText? s
  d.foldlM (fun c f => set base c f.1 f.2) {}

end Configuration

inductive ConfigurationError where
  | unreadable (path : Path) (cause : FileError)
  /-- The text is no TOML, or sets what there is not. -/
  | invalid (path : Path)
  deriving DecidableEq, Repr

namespace ConfigurationError

def message : ConfigurationError → String
  | .unreadable path _ => "Failed to read configuration " ++ path.toString
  | .invalid path => "Invalid configuration in " ++ path.toString

def cause : ConfigurationError → String
  | .unreadable _ cause => cause.message
  | .invalid _ => "the keys are bst-dirs and bibliography, a table of " ++
      String.intercalate ", " Configuration.optionNames

end ConfigurationError

def Configuration.fileName : Path := "bibcraft.toml".toList

/-- Reads the configuration file that is given, or else the one in a directory, if there is one. -/
def Configuration.load {m : Type → Type} [Monad m] (files : FileAccess m) (given : Option Path)
    (directory : Path) : m (Except ConfigurationError Configuration) := do
  let beside := Path.join directory fileName
  if given.isNone && !(← files.isFile beside) then return .ok {}
  let path := given.getD beside
  match ← files.read path with
  | .error e => return .error (.unreadable path e)
  | .ok text =>
    match ofText? text path.directory with
    | some c => return .ok c
    | none => return .error (.invalid path)

end Bibliography
