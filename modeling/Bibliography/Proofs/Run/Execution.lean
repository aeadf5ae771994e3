import Bibliography.Style.Execution

set_option autoImplicit false

/-! # Two ways to follow a run

Functions are run in the same way by everything that follows a run (`Execution`). So two followers
correspond all along if they correspond where they differ: in single pieces, in what is put in turn,
and in what it is to run a built-in function or the body of a style function (`Correspondence`).

Main statement: `Correspondence.executeName`.
-/

namespace Bibliography.Style

open Execution (once unfinished running calling)

/-- A relation between two followers of runs that holds of pieces and passes from parts to
wholes. -/
structure Correspondence (X Y : Type → Type) [Execution X] [Execution Y]
    (R : ∀ {α : Type}, X α → Y α → Prop) : Prop where
  once : ∀ {α : Type} (b? : Option Builtin) (x : Run α), R (once b? x) (once b? x)
  bind : ∀ {α β : Type} {x : X α} {y : Y α} {f : α → X β} {g : α → Y β},
    R x y → (∀ a, R (f a) (g a)) → R (x >>= f) (y >>= g)
  unfinished : R unfinished unfinished
  running : ∀ (b : Builtin) {x : X Unit} {y : Y Unit}, R x y → R (running b x) (running b y)
  calling : ∀ (name : Text) {x : X Unit} {y : Y Unit},
    R x y → R (calling name x) (calling name y)

namespace Correspondence

variable {X Y : Type → Type} [Execution X] [Execution Y] {R : ∀ {α : Type}, X α → Y α → Prop}
variable (h : Correspondence X Y R)
include h

section

variable {call : Text → X Unit} {call' : Text → Y Unit} (hcall : ∀ name, R (call name) (call' name))
include hcall

theorem runTokens (ts : List Token) : R (runTokens call ts) (runTokens call' ts) := by
  induction ts with
  | nil => exact h.once none _
  | cons t ts ih =>
    cases t with
    | integer _ | string _ | block _ | quoted _ => exact h.bind (h.once none _) fun _ => ih
    | name name => exact h.bind (hcall name) fun _ => ih

theorem runValue (v : Value) : R (runValue call v) (runValue call' v) := by
  cases v with
  | function ts => exact h.runTokens hcall ts
  | reference name => exact hcall name
  | integer _ | string _ | missing _ => exact h.once none _

omit hcall in
theorem runLoop {condition body : X Unit} {condition' body' : Y Unit}
    (hc : R condition condition') (hb : R body body') (turns : Nat) :
    R (runLoop condition body turns) (runLoop condition' body' turns) := by
  induction turns with
  | zero => exact h.unfinished
  | succ turns ih =>
    refine h.bind hc fun _ => h.bind (h.once none _) fun n => ?_
    split
    · exact h.once none _
    · exact h.bind hb fun _ => ih

theorem runBuiltin (turns : Nat) (b : Builtin) :
    R (runBuiltin call turns b) (runBuiltin call' turns b) := by
  cases b with
  | ifThenElse =>
    refine h.bind (h.once none _) fun otherwise => h.bind (h.once none _) fun thenValue =>
      h.bind (h.once none _) fun n => ?_
    split
    · exact h.runValue hcall thenValue
    · exact h.runValue hcall otherwise
  | «while» =>
    exact h.bind (h.once none _) fun body => h.bind (h.once none _) fun condition =>
      h.runLoop (h.runValue hcall condition) (h.runValue hcall body) turns
  | callType => exact h.bind (h.once none _) hcall
  | _ => exact h.once _ _

theorem runBinding (turns : Nat) (name : Text) (b : Binding) :
    R (runBinding call turns name b) (runBinding call' turns name b) := by
  cases b with
  | builtin b => exact h.running b (h.runBuiltin hcall turns b)
  | function body => exact h.calling name (h.runTokens hcall body)
  | integer _ | string _ | field | entryInteger | entryString => exact h.once none _

end

/-- **What corresponds where followers differ corresponds for every name.** -/
theorem executeName (fuel : Nat) (name : Text) :
    R (executeName fuel name) (executeName fuel name) := by
  induction fuel generalizing name with
  | zero => exact h.unfinished
  | succ fuel ih =>
    refine h.bind (h.once none _) fun bindings => ?_
    cases bindings.get? name with
    | none => exact h.once none _
    | some b => exact h.runBinding ih fuel name b

end Correspondence

end Bibliography.Style
