import Bibliography.Proofs.Run.Commands
import Bibliography.Proofs.Run.Execution
import Bibliography.Proofs.Run.Steps

set_option autoImplicit false

/-! # Fuel

Fuel only decides whether a run has an end, not which one: what ends with some fuel ends in the
same way with more. For pieces of runs this is `Run.Below`, which passes from parts to wholes; the
functions that run no others do not look at the fuel at all.

Main statements: `below_runName`, `Interpreter.run_mono`.
-/

namespace Bibliography.Style

namespace Run

variable {α β : Type}

/-- Where `x` has an end, `y` has the same. -/
def Below (x y : Run α) : Prop := ∀ s m, x s m = .unfinished ∨ x s m = y s m

namespace Below

theorem refl (x : Run α) : Below x x := fun _ _ => Or.inr rfl

theorem unfinished (y : Run Unit) : Below (fun _ _ => .unfinished) y := fun _ _ => Or.inl rfl

theorem bind {x y : Run α} {f g : α → Run β} (hxy : Below x y) (hfg : ∀ a, Below (f a) (g a)) :
    Below (x >>= f) (y >>= g) := by
  intro s m
  rw [bind_apply, bind_apply]
  rcases hxy s m with h | h
  · exact Or.inl (by rw [h])
  · rw [← h]
    cases x s m with
    | done a m => exact hfg a s m
    | failed f m => exact Or.inr rfl
    | unfinished => exact Or.inl rfl

theorem running (b : Builtin) {x y : Run Unit} (h : Below x y) :
    Below (running b x) (running b y) :=
  fun _ m => h _ m

theorem calling (name : Text) {x y : Run Unit} (h : Below x y) :
    Below (calling name x) (calling name y) := by
  intro s m
  rw [calling_apply, calling_apply]
  split
  · exact Or.inr rfl
  · exact h { s with depth := s.depth + 1 } m

theorem correspondence : Correspondence Run Run @Below where
  once _ x := refl x
  bind := bind
  unfinished := unfinished _
  running := running
  calling := calling

/-- A loop that may go on for more turns. -/
theorem loop {condition condition' body body' : Run Unit} (hc : Below condition condition')
    (hb : Below body body') {turns turns' : Nat} (hturns : turns ≤ turns') :
    Below (runLoop condition body turns) (runLoop condition' body' turns') := by
  induction turns generalizing turns' with
  | zero => exact unfinished _
  | succ turns ih =>
    obtain ⟨turns', rfl⟩ : ∃ t, turns' = t + 1 := ⟨turns' - 1, by omega⟩
    rw [runLoop, runLoop]
    refine bind hc fun _ => bind (refl _) fun n => ?_
    split
    · exact refl _
    · exact bind hb fun _ => ih (by omega)

section

variable {call call' : Text → Run Unit} (hcall : ∀ name, Below (call name) (call' name))
include hcall

/-- The turns bound nothing but loops. -/
theorem builtin {turns turns' : Nat} (hturns : turns ≤ turns') (b : Builtin) :
    Below (runBuiltin call turns b) (runBuiltin call' turns' b) := by
  cases b with
  | «while» =>
    exact bind (refl _) fun body => bind (refl _) fun condition =>
      loop (correspondence.runValue hcall condition) (correspondence.runValue hcall body) hturns
  | _ => exact correspondence.runBuiltin hcall turns _

theorem binding {turns turns' : Nat} (hturns : turns ≤ turns') (name : Text) (b : Binding) :
    Below (runBinding call turns name b) (runBinding call' turns' name b) := by
  cases b with
  | builtin b => exact running b (builtin hcall hturns b)
  | function _ | integer _ | string _ | field | entryInteger | entryString =>
    exact correspondence.runBinding hcall turns name _

end

end Below

end Run

/-- **More fuel changes no end.** -/
theorem below_runName {fuel fuel' : Nat} (h : fuel ≤ fuel') (name : Text) :
    (runName fuel name).Below (runName fuel' name) := by
  induction fuel generalizing fuel' name with
  | zero => exact Run.Below.unfinished _
  | succ fuel ih =>
    obtain ⟨fuel', rfl⟩ : ∃ f, fuel' = f + 1 := ⟨fuel' - 1, by omega⟩
    have hfuel : fuel ≤ fuel' := by omega
    -- the fuel that is left bounds the names inside and the turns of loops alike
    refine Run.Below.bind (Run.Below.refl _) fun bindings => ?_
    cases bindings.get? name with
    | none => exact Run.Below.refl _
    | some b => exact Run.Below.binding (ih hfuel) hfuel name b

/-! ## Commands -/

namespace Interpreter

variable {fuel fuel' : Nat} (h : fuel ≤ fuel') {i i' : Interpreter}
include h

theorem runFunction_mono {current : Option Text} {name : Text} {r : Except Fault Unit}
    (hrun : i.runFunction fuel current name = some (r, i')) :
    i.runFunction fuel' current name = some (r, i') := by
  rw [runFunction] at hrun ⊢
  rcases below_runName h name (i.scene current) i.machine with hrun' | hrun'
  · rw [hrun'] at hrun
    cases hrun
  · rw [← hrun']
    exact hrun

theorem iterate_mono {word : String} {span : SourceSpan} {name : Text} {keys : List Text}
    {r : Except Fault Unit} (hrun : i.iterate fuel word span name keys = some (r, i')) :
    i.iterate fuel' word span name keys = some (r, i') := by
  induction keys generalizing i with
  | nil => exact hrun
  | cons key keys ih =>
    rw [iterate_cons] at hrun ⊢
    cases hkey : i.runFunction fuel (some key) name with
    | none =>
      rw [hkey] at hrun
      cases hrun
    | some p =>
      rw [runFunction_mono h hkey]
      rw [hkey] at hrun
      obtain ⟨r', i''⟩ := p
      cases r' with
      | ok u => exact ih hrun
      | error f => exact hrun

theorem iterateCommand_mono {word : String} {span : SourceSpan} {name : Text} {keys : List Text}
    {r : Except Fault Unit} (hrun : i.iterateCommand fuel word span name keys = some (r, i')) :
    i.iterateCommand fuel' word span name keys = some (r, i') := by
  rw [iterateCommand_eq] at hrun ⊢
  by_cases hseen : (!i.readSeen) = true
  · rwa [if_pos hseen] at hrun ⊢
  · rw [if_neg hseen] at hrun ⊢
    by_cases hbound : (!i.machine.bindings.contains name) = true
    · rwa [if_pos hbound] at hrun ⊢
    · rw [if_neg hbound] at hrun ⊢
      exact iterate_mono h hrun

theorem runCommand_mono {bibFiles : List Text} {c : LocatedCommand} {r : Except Fault Unit}
    (hrun : i.runCommand fuel bibFiles c = some (r, i')) :
    i.runCommand fuel' bibFiles c = some (r, i') := by
  obtain ⟨command, span⟩ := c
  rw [runCommand_eq] at hrun ⊢
  cases command with
  | execute name => exact runFunction_mono h hrun
  | iterate name | reverse name => exact iterateCommand_mono h hrun
  | entry _ _ _ | integers _ | strings _ | function _ _ | abbreviation _ _ | read | sort =>
    exact hrun

theorem runCommands_mono {bibFiles : List Text} {p : Program} {r : Except Fault Unit}
    (hrun : runCommands fuel bibFiles p i = some (r, i')) :
    runCommands fuel' bibFiles p i = some (r, i') := by
  induction p generalizing i with
  | nil => exact hrun
  | cons c cs ih =>
    rw [runCommands_cons] at hrun ⊢
    cases hc : i.runCommand fuel bibFiles c with
    | none =>
      rw [hc] at hrun
      cases hrun
    | some q =>
      rw [runCommand_mono h hc]
      rw [hc] at hrun
      obtain ⟨r', i''⟩ := q
      cases r' with
      | ok u => exact ih hrun
      | error f => exact hrun

/-- **A style that ends with some fuel ends in the same way with more.** -/
theorem run_mono {p : Program} {citations bibFiles : List Text} {r : Except Fault Unit}
    (hrun : i.run fuel p citations bibFiles = some (r, i')) :
    i.run fuel' p citations bibFiles = some (r, i') := by
  rw [run] at hrun ⊢
  cases hp : runCommands fuel bibFiles p { i with citations := citations } with
  | none =>
    rw [hp] at hrun
    cases hrun
  | some q =>
    rw [runCommands_mono h hp]
    rw [hp] at hrun
    exact hrun

end Interpreter

end Bibliography.Style
