import Bibliography.Proofs.Run.Execution
import Bibliography.Proofs.Run.Frame
import Bibliography.Style.Interpreter
import Mathlib.Tactic.Set

set_option autoImplicit false

/-! # Sessions

While a function runs, what surrounds it — the options, the database, the citations, the current
entry, the running built-in function, the depth of calls — is an argument of the run (`Scene`). A
machine that has no such arguments holds all of it in one state that everything can change, and has
to put back by hand what a call has changed, also when the call fails. This file is that machine.
A `Session` is the state; an `Action` changes it, and follows a run step by step (`Execution`): a
built-in function and the body of a style function set the registers and put them back
(`Action.running`, `Action.calling`). A further register holds the greatest depth that there ever
was.

Main statement: an action gives what the run gives that it mirrors, and leaves what surrounds the
machine as it was (`mirrors_executeName`).
-/

namespace Bibliography.Style

/-! ## The state -/

/-- Everything that there is while a style runs. -/
structure Session where
  interpreter : Interpreter
  bibFiles : List Text
  /-- The key of the current entry. -/
  current : Option Text := none
  /-- The built-in function that is running. -/
  active : Option Builtin := none
  /-- The number of calls of style functions that are going on. -/
  depth : Nat := 0
  /-- The greatest number of such calls that ever went on. -/
  deepest : Nat := 0

namespace Session

def scene (σ : Session) : Scene where
  options := σ.interpreter.options
  data := σ.interpreter.data
  visibleCrossrefs := σ.interpreter.visibleCrossrefs
  current := σ.current
  active := σ.active
  depth := σ.depth

def machine (σ : Session) : Machine := σ.interpreter.machine

/-- The state with another machine, after calls have been `deepest` deep. -/
def after (σ : Session) (m : Machine) (deepest : Nat) : Session :=
  { σ with interpreter := { σ.interpreter with machine := m }, deepest := deepest }

end Session

/-! ## Actions -/

/-- A piece of work on the state. It gives nothing when the fuel does not suffice, and the state at
the end also when it fails. -/
def Action (α : Type) : Type := Session → Option (Except Fault α × Session)

/-- What an outcome makes of a state. -/
def Outcome.onto {α : Type} (σ : Session) (deepest : Nat) :
    Outcome α → Option (Except Fault α × Session)
  | .done a m => some (.ok a, σ.after m deepest)
  | .failed f m => some (.error f, σ.after m deepest)
  | .unfinished => none

namespace Action

variable {α β : Type}

/-- A run that runs no functions, as an action. -/
def perform (x : Run α) : Action α := fun σ => (x σ.scene σ.machine).onto σ σ.deepest

/-- One action after another, unless the first fails or does not end. -/
def andThen (x : Action α) (f : α → Action β) : Action β := fun σ =>
  match x σ with
  | some (.ok a, σ) => f a σ
  | some (.error e, σ) => some (.error e, σ)
  | none => none

/-- Notes that a built-in function runs, and puts the note before it back. -/
def running (b : Builtin) (x : Action Unit) : Action Unit := fun σ =>
  match x { σ with active := some b } with
  | some (r, σ') => some (r, { σ' with active := σ.active })
  | none => none

/-- Counts one call more, unless there are too many, and then one less. -/
def calling (name : Text) (x : Action Unit) : Action Unit := fun σ =>
  if maxDepth ≤ σ.depth then some (.error (.recursionLimit name), σ)
  else
    match x { σ with depth := σ.depth + 1, deepest := max σ.deepest (σ.depth + 1) } with
    | some (r, σ') => some (r, { σ' with depth := σ'.depth - 1 })
    | none => none

def give (a : α) : Action α := fun σ => some (.ok a, σ)

instance : Monad Action where
  pure := give
  bind := andThen

theorem bind_apply (x : Action α) (f : α → Action β) (σ : Session) :
    (x >>= f) σ = match x σ with
      | some (.ok a, σ) => f a σ
      | some (.error e, σ) => some (.error e, σ)
      | none => none := rfl

/-- Functions are run on the whole state as they are in a scene, but that the registers are set and
put back by hand. -/
instance : Execution Action where
  once _ x := perform x
  unfinished := fun _ => none
  running := running
  calling := calling

/-! ## Actions mirror runs -/

/-- The action does what the run does: it gives the same, leaves the same machine and the state
around it as it was, and calls never were deeper than they were before or may be. -/
def Mirrors (x : Action α) (y : Run α) : Prop :=
  ∀ σ : Session, ∃ deepest, σ.deepest ≤ deepest ∧ deepest ≤ max σ.deepest maxDepth ∧
    x σ = (y σ.scene σ.machine).onto σ deepest

namespace Mirrors

theorem perform (x : Run α) : Mirrors (perform x) x :=
  fun σ => ⟨σ.deepest, Nat.le_refl _, Nat.le_max_left _ _, rfl⟩

theorem unfinished : Mirrors (Execution.unfinished : Action Unit) Execution.unfinished :=
  fun σ => ⟨σ.deepest, Nat.le_refl _, Nat.le_max_left _ _, rfl⟩

theorem andThen {x : Action α} {y : Run α} {f : α → Action β} {g : α → Run β}
    (hx : Mirrors x y) (hf : ∀ a, Mirrors (f a) (g a)) : Mirrors (x >>= f) (y >>= g) := by
  intro σ
  obtain ⟨deepest, hge, hle, heq⟩ := hx σ
  rw [Run.bind_apply, bind_apply, heq]
  cases y σ.scene σ.machine with
  | done a m =>
    -- the second action starts in the same scene, on the machine that the first one left
    obtain ⟨deepest', hge', hle', heq'⟩ := hf a (σ.after m deepest)
    change deepest ≤ deepest' at hge'
    change deepest' ≤ max deepest maxDepth at hle'
    refine ⟨deepest', by omega, by omega, ?_⟩
    show f a (σ.after m deepest) = (g a σ.scene m).onto σ deepest'
    rw [heq']
    show (g a σ.scene m).onto (σ.after m deepest) deepest' = _
    cases g a σ.scene m <;> rfl
  | failed e m => exact ⟨deepest, hge, hle, rfl⟩
  | unfinished => exact ⟨deepest, hge, hle, rfl⟩

theorem running (b : Builtin) {x : Action Unit} {y : Run Unit} (h : Mirrors x y) :
    Mirrors (running b x) (Run.running b y) := by
  intro σ
  set τ : Session := { σ with active := some b } with hτ
  obtain ⟨deepest, hge, hle, heq⟩ := h τ
  refine ⟨deepest, hge, hle, ?_⟩
  have hrun : Run.running b y σ.scene σ.machine = y τ.scene τ.machine := rfl
  rw [Action.running, ← hτ, heq, hrun]
  cases y τ.scene τ.machine <;> rfl

theorem calling (name : Text) {x : Action Unit} {y : Run Unit} (h : Mirrors x y) :
    Mirrors (calling name x) (Run.calling name y) := by
  intro σ
  by_cases hdepth : maxDepth ≤ σ.depth
  · refine ⟨σ.deepest, Nat.le_refl _, Nat.le_max_left _ _, ?_⟩
    have hscene : maxDepth ≤ σ.scene.depth := hdepth
    rw [Action.calling, if_pos hdepth, Run.calling_apply, if_pos hscene]
    rfl
  · -- the call goes on with one more in the count, which is within the bound
    set τ : Session :=
      { σ with depth := σ.depth + 1, deepest := max σ.deepest (σ.depth + 1) } with hτ
    obtain ⟨deepest, hge, hle, heq⟩ := h τ
    change max σ.deepest (σ.depth + 1) ≤ deepest at hge
    change deepest ≤ max (max σ.deepest (σ.depth + 1)) maxDepth at hle
    refine ⟨deepest, by omega, by omega, ?_⟩
    have hscene : ¬ maxDepth ≤ σ.scene.depth := hdepth
    have hrun : Run.calling name y σ.scene σ.machine = y τ.scene τ.machine := by
      rw [Run.calling_apply, if_neg hscene]
      rfl
    rw [Action.calling, if_neg hdepth, ← hτ, heq, hrun]
    cases y τ.scene τ.machine <;> rfl

/-- Runs and actions correspond where they differ. -/
theorem correspondence : Correspondence Action Run @Mirrors where
  once := fun _ x => perform x
  bind := andThen
  unfinished := unfinished
  running := running
  calling := calling

end Mirrors

/-- **Running a name on the whole state mirrors running it in a scene.** -/
theorem mirrors_executeName (fuel : Nat) (name : Text) :
    Mirrors (executeName fuel name) (runName fuel name) :=
  Mirrors.correspondence.executeName fuel name

end Action

end Bibliography.Style
