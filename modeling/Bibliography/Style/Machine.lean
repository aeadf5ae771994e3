import Bibliography.Database.Basic
import Bibliography.NameFormat.Cache
import Bibliography.Style.Fault
import Bibliography.Style.Options

set_option autoImplicit false

/-! # The machine that runs a style

While a function runs, part of what there is stays as it is (`Scene`): the options, the database,
the current entry and the calls that are going on. The rest changes (`Machine`): the stack, the
variables, the output and the diagnostics. -/

namespace Bibliography.Style

/-- What a name is bound to. -/
inductive Binding where
  | builtin (b : Builtin)
  | function (body : List Token)
  /-- A global integer variable and its value. -/
  | integer (n : Int)
  /-- A global string variable and its value. -/
  | string (s : Text)
  /-- A field of the current entry. -/
  | field
  /-- An integer variable of the current entry. -/
  | entryInteger
  /-- A string variable of the current entry. -/
  | entryString
  deriving Repr

/-- The variables of an entry; one that was never assigned is zero or empty. -/
structure EntryVariables where
  integers : Table Int := []
  strings : Table Text := []
  deriving DecidableEq, Repr

/-- How a sink answers when it is handed a piece of text: the words in which it refuses the piece,
if it does, after the pieces that it was handed before, the last one first. -/
abbrev SinkAnswers := List Text → Text → Option String

/-- The answers of a sink that refuses nothing. -/
def SinkAnswers.willing : SinkAnswers := fun _ _ => none

/-- No piece is ever refused. -/
def SinkAnswers.TakesAll (answers : SinkAnswers) : Prop :=
  ∀ before piece, answers before piece = none

/-- Where the lines of the bibliography go. -/
structure Sink where
  answers : SinkAnswers
  /-- The pieces that it was handed, the last one first. -/
  handed : List Text := []
  /-- Those of them that it took. -/
  pieces : List Text := []

def Sink.written (s : Sink) : Text := s.pieces.reverse.flatten

/-- Hands over a piece of text, which is taken as a whole or refused. -/
def Sink.write (s : Sink) (piece : Text) : Except String Unit × Sink :=
  let handed := piece :: s.handed
  match s.answers s.handed piece with
  | none => (.ok (), { s with handed := handed, pieces := piece :: s.pieces })
  | some words => (.error words, { s with handed := handed })

/-- What stays as it is while a function runs. -/
structure Scene where
  options : Options := {}
  data : Database := .empty
  /-- The folded keys of the entries whose cross reference can be seen. -/
  visibleCrossrefs : List Text := []
  /-- The key of the current entry, as it was cited. -/
  current : Option Text := none
  /-- The built-in function that is running. -/
  active : Option Builtin := none
  /-- The number of calls of style functions that are going on. -/
  depth : Nat := 0

/-- The name of the function that is running, for messages. -/
def Scene.activeName (s : Scene) : Text := ((s.active.map Builtin.name).getD "").toList

/-- What changes while a function runs. -/
structure Machine where
  bindings : Table Binding
  /-- The stack, its top first. -/
  stack : List Value := []
  /-- The variables of the entries under their folded keys. -/
  entryVariables : Table EntryVariables := []
  /-- The pieces of the line that is not finished, the last one first. -/
  pending : List Text := []
  sink : Sink
  diagnostics : List Diagnostic := []
  /-- The formats of the patterns that names were printed by. Which of them are kept makes no
  difference to any run, so nothing else may depend on it. -/
  formats : Squash FormatCache := Squash.mk .empty

def Machine.output (m : Machine) : Text := m.pending.reverse.flatten

/-- The name of the variable by which entries are sorted. -/
def sortKey : Text := "sort.key$".toList

/-- What names are bound to before any declaration. -/
def initialBindings : Table Binding :=
  Builtin.all.map (fun b => (b.name.toList, Binding.builtin b)) ++
    [("global.max$".toList, .integer 10000), ("entry.max$".toList, .integer 10000),
      (sortKey, .entryString)]

/-! ## Runs -/

/-- How a run ends: with a value, with a fault, or not at all within the fuel it has. -/
inductive Outcome (α : Type) where
  | done (a : α) (m : Machine)
  | failed (f : Fault) (m : Machine)
  | unfinished

def Run (α : Type) : Type := Scene → Machine → Outcome α

namespace Run

variable {α β : Type}

def give (a : α) : Run α := fun _ m => .done a m

/-- Goes on with the value of a run, unless that fails or does not end. -/
def andThen (x : Run α) (f : α → Run β) : Run β := fun s m =>
  match x s m with
  | .done a m => f a s m
  | .failed e m => .failed e m
  | .unfinished => .unfinished

instance : Monad Run where
  pure := give
  bind := andThen

def fail (f : Fault) : Run α := fun _ m => .failed f m

/-- Goes on with a result, or ends with its fault. -/
def ofExcept : Except Fault α → Run α
  | .ok a => give a
  | .error f => fail f

def scene : Run Scene := fun s m => .done s m

def machine : Run Machine := fun _ m => .done m m

def change (f : Machine → Machine) : Run Unit := fun _ m => .done () (f m)

/-- Runs in another scene. -/
def within (f : Scene → Scene) (x : Run α) : Run α := fun s m => x (f s) m

/-! ## What a run can ask for -/

/-- The name of the function that is running, for messages. -/
def activeName : Run Text := fun s m => .done s.activeName m

/-- The key of the current entry as it was cited, if there is one. -/
def current : Run (Option Text) := fun s m => .done s.current m

def preamble : Run Text := fun s m => .done s.data.preamble.flatten m

def options : Run Options := fun s m => .done s.options m

def bindings : Run (Table Binding) := fun _ m => .done m.bindings m

/-! ## Running in turn -/

def running (b : Builtin) (x : Run α) : Run α := within (fun s => { s with active := some b }) x

/-- Runs the body of a style function, unless calls are nested too deeply already. -/
def calling (name : Text) (x : Run Unit) : Run Unit := do
  if maxDepth ≤ (← scene).depth then fail (.recursionLimit name)
  else within (fun s => { s with depth := s.depth + 1 }) x

/-! ## The stack -/

def push (v : Value) : Run Unit := change fun m => { m with stack := v :: m.stack }

def pop : Run Value := fun s m =>
  match m.stack with
  | [] => .failed (.stackUnderflow s.activeName) m
  | v :: vs => .done v { m with stack := vs }

/-- Takes all values from the stack, its top first. -/
def takeStack : Run (List Value) := fun _ m => .done m.stack { m with stack := [] }

/-- Ends with the fault that a value is of the wrong kind. -/
def mismatch (wanted : Wanted) (found : Value) : Run α := do
  fail (.typeMismatch (← activeName) wanted found.kind)

def invalidArgument (f : ArgumentFault) : Run α := do
  fail (.invalidArgument (← activeName) f)

def popInteger : Run Int := do
  match ← pop with
  | .integer n => return n
  | other => mismatch .integer other

/-- Takes a string from the stack; a missing field counts as empty. -/
def popString : Run Text := do
  match ← pop with
  | .string s => return s
  | .missing _ => return []
  | other => mismatch .string other

def popRunnable : Run Value := do
  match ← pop with
  | .function body => return .function body
  | .reference name => return .reference name
  | other => mismatch .runnable other

/-! ## The current entry -/

/-- The current entry, or the fault that `function` can not be used without one. -/
def currentEntry (function : Text) : Run Entry := do
  let s ← scene
  match s.current.bind s.data.entry? with
  | some e => return e
  | none => fail (.noCurrentEntry function)

/-- The key of the current entry as it was cited. -/
def currentKey (function : Text) : Run Text := do
  match ← current with
  | some key => return key
  | none => fail (.noCurrentEntry function)

def variablesOf (key : Text) : Run EntryVariables :=
  fun _ m => .done ((m.entryVariables.get? key.fold).getD {}) m

def setVariables (key : Text) (vars : EntryVariables) : Run Unit :=
  change fun m => { m with entryVariables := m.entryVariables.set key.fold vars }

/-- The variables of the current entry, which `name` is one of. An entry that had none so far gets
them by being asked for them. -/
def currentVariables (name : Text) : Run EntryVariables := do
  let key ← currentKey name
  let found ← variablesOf key
  setVariables key found
  return found

/-- Changes the variables of the current entry, which `name` is one of. -/
def changeVariables (name : Text) (f : EntryVariables → EntryVariables) : Run Unit := do
  let key ← currentKey name
  let found ← currentVariables name
  setVariables key (f found)

/-- The value of a field of the current entry. A cross reference is seen only if the entry that
it leads to is part of the bibliography. -/
def fieldValue (name : Text) : Run Value := do
  let e ← currentEntry name
  let s ← scene
  if name = "crossref".toList ∧ ¬ s.visibleCrossrefs.contains e.key.fold then
    return .missing name
  else return .ofField (s.data.field e name)

/-! ## Output and diagnostics -/

def report (d : Diagnostic) : Run Unit :=
  change fun m => { m with diagnostics := m.diagnostics ++ [d] }

/-- Adds a text to the line that is not finished. -/
def write (s : Text) : Run Unit := change fun m => { m with pending := s :: m.pending }

/-- Takes the line that is not finished; the next one is empty. -/
def takeLine : Run Text := fun _ m => .done m.output { m with pending := [] }

/-- Hands a piece of text to the sink. -/
def emit (piece : Text) : Run Unit := fun _ m =>
  match m.sink.write piece with
  | (.ok (), sink) => .done () { m with sink := sink }
  | (.error words, sink) => .failed (.output words) { m with sink := sink }

/-- Hands lines to the sink, each with its newline. -/
def emitLines : List Text → Run Unit
  | [] => give ()
  | line :: lines => do
    emit line
    emit ['\n']
    emitLines lines

end Run

end Bibliography.Style
