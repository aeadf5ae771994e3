import Bibliography.Style.Functions

set_option autoImplicit false

/-! # Running functions

A name runs the function it is bound to, or puts the value of a variable on the stack. Calls of
style functions are counted, and nesting them too deeply is a fault; fuel bounds the nesting of
everything else and the turns of each loop. A run that ends with some fuel ends in the same way
with more.

How functions are run is said once for everything that follows a run step by step (`Execution`):
first of all for runs themselves, but also for what tells their history, say, or keeps books. -/

namespace Bibliography.Style

/-- What can follow a run step by step: it has pieces that are put in turn, and it says what it is
to run a built-in function and the body of a style function. -/
class Execution (X : Type → Type) extends Monad X where
  /-- A piece in which no function runs another; of the function `b?`, or of none. -/
  once {α : Type} (b? : Option Builtin) (x : Run α) : X α
  /-- What the fuel does not suffice for. -/
  unfinished : X Unit
  running (b : Builtin) (x : X Unit) : X Unit
  calling (name : Text) (x : X Unit) : X Unit

instance : Execution Run where
  once _ x := x
  unfinished _ _ := .unfinished
  running := Run.running
  calling := Run.calling

open Execution

variable {X : Type → Type} [Execution X]

/-! ## Tokens and values -/

def runTokens (call : Text → X Unit) : List Token → X Unit
  | [] => once none (Run.give ())
  | .integer n :: ts => do
    once none (Run.push (.integer n))
    runTokens call ts
  | .string s :: ts => do
    once none (Run.push (.string s))
    runTokens call ts
  | .block body :: ts => do
    once none (Run.push (.function body))
    runTokens call ts
  | .quoted name :: ts => do
    once none (Run.refer name)
    runTokens call ts
  | .name name :: ts => do
    call name
    runTokens call ts

def runValue (call : Text → X Unit) : Value → X Unit
  | .function ts => runTokens call ts
  | .reference name => call name
  | other => once none (Run.mismatch .function other)

/-! ## Functions that run others -/

def runIf (call : Text → X Unit) : X Unit := do
  let otherwise ← once none Run.popRunnable
  let thenValue ← once none Run.popRunnable
  let n ← once none Run.popInteger
  if 0 < n then runValue call thenValue else runValue call otherwise

/-- Runs a body as long as a condition leaves a positive integer, for a number of turns. -/
def runLoop (condition body : X Unit) : Nat → X Unit
  | 0 => unfinished
  | turns + 1 => do
    condition
    let n ← once none Run.popInteger
    if n ≤ 0 then once none (Run.give ())
    else do
      body
      runLoop condition body turns

/-- Takes a condition and a body and runs them in turn. -/
def runWhile (call : Text → X Unit) (turns : Nat) : X Unit := do
  let body ← once none Run.popRunnable
  let condition ← once none Run.popRunnable
  runLoop (runValue call condition) (runValue call body) turns

def runCallType (call : Text → X Unit) : X Unit := do
  let name ← once none Run.handlerName
  call name

open Run in
/-- What a built-in function does, where `turns` bounds the turns of a loop. -/
def runBuiltin (call : Text → X Unit) (turns : Nat) (b : Builtin) : X Unit :=
  match b with
  | .greater => once b (compare fun a b => decide (b < a))
  | .less => once b (compare fun a b => decide (a < b))
  | .equal => once b equal
  | .plus => once b (combine (· + ·))
  | .minus => once b (combine (· - ·))
  | .times => once b times
  | .assign => once b assign
  | .addPeriod => once b (transform fun s => .string (Tex.addPeriod s))
  | .callType => runCallType call
  | .changeCase => once b changeCase
  | .chrToInt => once b chrToInt
  | .cite => once b do push (.string (← currentKey (← activeName)))
  | .duplicate => once b duplicate
  | .empty => once b empty
  | .formatName => once b Run.formatName
  | .ifThenElse => runIf call
  | .intToChr => once b intToChr
  | .intToStr => once b do push (.string (toString (← popInteger)).toList)
  | .missing => once b missing
  | .newline => once b newline
  | .numNames => once b (transform fun s => .integer (Tex.splitNameList s).length)
  | .pop => once b do discard pop
  | .preamble => once b do push (.string (← preamble))
  | .purify => once b (transform fun s => .string (Tex.purify s))
  | .quote => once b (push (.string ['"']))
  | .skip => once b (give ())
  | .stack => once b stack
  | .substring => once b substring
  | .swap => once b swap
  | .textLength => once b (transform fun s => .integer (Tex.length s))
  | .textPrefix => once b textPrefix
  | .top => once b top
  | .type => once b do push (.string (← currentEntry (← activeName)).kind)
  | .warning => once b warning
  | .while => runWhile call turns
  | .width => once b (transform fun s => .integer (Tex.width s))
  | .write => once b do write (← popString)

/-! ## Names -/

/-- Runs what a name is bound to, where `call` runs names and `turns` bounds loops. -/
def runBinding (call : Text → X Unit) (turns : Nat) (name : Text) : Binding → X Unit
  | .builtin b => running b (runBuiltin call turns b)
  | .function body => calling name (runTokens call body)
  | .integer n => once none (Run.push (.integer n))
  | .string s => once none (Run.push (.string s))
  | .field => once none do Run.push (← Run.fieldValue name)
  | .entryInteger => once none do
    Run.push (.integer (((← Run.currentVariables name).integers.get? name).getD 0))
  | .entryString => once none do
    Run.push (.string (((← Run.currentVariables name).strings.get? name).getD []))

/-- Runs a name, in whatever follows a run. -/
def executeName : Nat → Text → X Unit
  | 0, _ => unfinished
  | fuel + 1, name => do
    match (← once none Run.bindings).get? name with
    | none => once none (Run.fail (.undefinedName name))
    | some b => runBinding (executeName fuel) fuel name b

def runName (fuel : Nat) (name : Text) : Run Unit := executeName fuel name

end Bibliography.Style
