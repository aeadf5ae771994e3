import Bibliography.Proofs.Run.Frame
import Bibliography.Proofs.Run.Fuel

set_option autoImplicit false

/-! # A body in the place of its name

A call runs the body of a function one level deeper than the row that the call stands in. Nothing
but the guard against deep nesting looks at the level, and no message tells it. So a run that the
guard does not cut off ends in the same way when fewer calls are going on (`Run.Rises`), and the
body of a function can stand where its name stands: the values, the variables, the output and the
faults are the same, with the names that they are told by.

Main statement: `runTokens_body_in_place`.
-/

namespace Bibliography.Style

/-! ## Runs that the guard does not cut off -/

/-- The fault of calls that are nested too deeply. -/
def Fault.IsRecursionLimit : Fault → Prop
  | .recursionLimit _ => True
  | _ => False

/-- The run has an end, and the end is not that calls were nested too deeply. -/
def Outcome.IsUncut {α : Type} : Outcome α → Prop
  | .done _ _ => True
  | .failed f _ => ¬ f.IsRecursionLimit
  | .unfinished => False

/-- Where the run ends uncut, it ends in the same way when fewer calls are going on. -/
def Run.Rises {α : Type} (x : Run α) : Prop :=
  ∀ (s : Scene) (m : Machine) (depth : Nat), depth ≤ s.depth → (x s m).IsUncut →
    x { s with depth := depth } m = x s m

namespace Run.Rises

variable {α β : Type}

/-- A run that does not look at the number of calls. -/
theorem of_blind {x : Run α}
    (hx : ∀ (s : Scene) (m : Machine) (depth : Nat), x { s with depth := depth } m = x s m) :
    x.Rises :=
  fun s m depth _ _ => hx s m depth

theorem bind {x : Run α} {f : α → Run β} (hx : x.Rises) (hf : ∀ a, (f a).Rises) :
    (x >>= f).Rises := by
  intro s m depth hdepth huncut
  rw [bind_apply] at huncut
  rw [bind_apply, bind_apply]
  cases hxs : x s m with
  | done a m' =>
    have hfirst : x { s with depth := depth } m = .done a m' := by
      rw [hx s m depth hdepth (by rw [hxs]; trivial), hxs]
    rw [hxs] at huncut
    rw [hfirst]
    exact hf a s m' depth hdepth huncut
  | failed e m' =>
    rw [hxs] at huncut
    have hfirst : x { s with depth := depth } m = .failed e m' := by
      rw [hx s m depth hdepth (by rw [hxs]; exact huncut), hxs]
    rw [hfirst]
  | unfinished =>
    rw [hxs] at huncut
    cases huncut

/-- The guard lets a call in that it lets in at a greater depth, and the body rises with it. -/
theorem calling (name : Text) {x : Run Unit} (hx : x.Rises) : (Run.calling name x).Rises := by
  intro s m depth hdepth huncut
  rw [calling_apply] at huncut
  rw [calling_apply, calling_apply]
  by_cases hlimit : maxDepth ≤ s.depth
  · rw [if_pos hlimit] at huncut
    exact absurd trivial huncut
  · rw [if_neg hlimit] at huncut
    have hlimit' : ¬ maxDepth ≤ depth := by omega
    rw [if_neg hlimit, if_neg hlimit']
    have hinner : depth + 1 ≤ s.depth + 1 := by omega
    exact hx { s with depth := s.depth + 1 } m (depth + 1) hinner huncut

theorem currentEntry (function : Text) : (Run.currentEntry function).Rises := by
  refine of_blind fun s m depth => ?_
  simp only [Run.currentEntry, bind_apply, scene_apply]
  cases s.current.bind s.data.entry? <;> rfl

theorem currentKey (function : Text) : (Run.currentKey function).Rises := by
  refine of_blind fun s m depth => ?_
  simp only [Run.currentKey, bind_apply, current_apply]
  cases s.current <;> rfl

theorem fieldValue (name : Text) : (Run.fieldValue name).Rises := by
  refine bind (currentEntry name) fun e => of_blind fun s m depth => ?_
  simp only [bind_apply, scene_apply]
  split <;> rfl

/-- What plain functions are made of does not look at the number of calls. -/
theorem elementary : Run.Elementary @Run.Rises where
  give := fun _ => of_blind fun _ _ _ => rfl
  bind := bind
  fail := fun _ _ => of_blind fun _ _ _ => rfl
  undefined := fun _ => of_blind fun _ _ _ => rfl
  activeName := of_blind fun _ _ _ => rfl
  current := of_blind fun _ _ _ => rfl
  preamble := of_blind fun _ _ _ => rfl
  bindings := of_blind fun _ _ _ => rfl
  currentEntry := currentEntry
  currentKey := currentKey
  fieldValue := fieldValue
  variablesOf := fun _ => of_blind fun _ _ _ => rfl
  setBinding := fun _ _ => of_blind fun _ _ _ => rfl
  setVariables := fun _ _ => of_blind fun _ _ _ => rfl
  push := fun _ => of_blind fun _ _ _ => rfl
  pop := of_blind fun _ _ _ => rfl
  report := fun _ => of_blind fun _ _ _ => rfl

theorem closed : Run.Closed @Run.Rises where
  toPlain := elementary.plain
  unfinished := of_blind fun _ _ _ => rfl
  options := of_blind fun _ _ _ => rfl
  takeStack := of_blind fun _ _ _ => rfl
  write := fun _ => of_blind fun _ _ _ => rfl
  takeLine := of_blind fun _ _ _ => rfl
  emit := fun _ => of_blind fun _ _ _ => rfl
  running := fun b _ hx s m depth hdepth huncut =>
    hx { s with active := some b } m depth hdepth huncut
  calling := calling

end Run.Rises

/-- **A row that ends uncut ends in the same way at every smaller depth.** -/
theorem rises_runTokens (fuel : Nat) (ts : List Token) : (runTokens (runName fuel) ts).Rises :=
  Run.Rises.closed.tokens (Run.Rises.closed.runName fuel) ts

/-! ## Rows put together -/

theorem runTokens_append (call : Text → Run Unit) (ts us : List Token) :
    runTokens call (ts ++ us) = (do runTokens call ts; runTokens call us) := by
  funext s m
  induction ts generalizing m with
  | nil => rfl
  | cons t ts ih =>
    -- whatever the first token does, it does before both
    have hfirst (x : Run Unit) :
        (do x; runTokens call (ts ++ us) : Run Unit) s m =
          (do (do x; runTokens call ts); runTokens call us : Run Unit) s m := by
      simp only [Run.bind_apply]
      cases x s m with
      | done _ m' => exact ih m'
      | failed _ _ => rfl
      | unfinished => rfl
    cases t with
    | integer n => exact hfirst (Run.push (.integer n))
    | string t => exact hfirst (Run.push (.string t))
    | block body => exact hfirst (Run.push (.function body))
    | quoted name => exact hfirst (Run.refer name)
    | name name => exact hfirst (call name)

/-- The body of a function gives what its name gives, if that is not cut off. -/
theorem runTokens_body {fuel : Nat} {name : Text} {body : List Token} {s : Scene} {m : Machine}
    (hb : m.bindings.get? name = some (.function body)) (huncut : (runName fuel name s m).IsUncut) :
    runTokens (runName fuel) body s m = runName fuel name s m := by
  cases fuel with
  | zero => cases huncut
  | succ fuel =>
    rw [runName_of_get? hb, runBinding, Run.calling_eq, Run.calling_apply] at huncut
    rw [runName_of_get? hb, runBinding, Run.calling_eq, Run.calling_apply]
    by_cases hlimit : maxDepth ≤ s.depth
    · rw [if_pos hlimit] at huncut
      exact absurd trivial huncut
    · rw [if_neg hlimit] at huncut
      rw [if_neg hlimit]
      -- in its place the body has more fuel, and one call less is going on
      have hfuel : runTokens (runName (fuel + 1)) body { s with depth := s.depth + 1 } m =
          runTokens (runName fuel) body { s with depth := s.depth + 1 } m := by
        have hbelow : (runTokens (runName fuel) body).Below (runTokens (runName (fuel + 1)) body) :=
          Run.Below.correspondence.runTokens (below_runName (Nat.le_succ fuel)) body
        rcases hbelow { s with depth := s.depth + 1 } m with hunfinished | heq
        · rw [hunfinished] at huncut
          cases huncut
        · exact heq.symm
      rw [← hfuel] at huncut ⊢
      exact rises_runTokens (fuel + 1) body { s with depth := s.depth + 1 } m s.depth
        (Nat.le_succ _) huncut

/-- A function is bound to its body still when a row has run. -/
theorem get?_function_of_done {fuel : Nat} {ts : List Token} {s : Scene} {m m' : Machine} {u : Unit}
    {name : Text} {body : List Token} (hb : m.bindings.get? name = some (.function body))
    (hdone : runTokens (runName fuel) ts s m = .done u m') :
    m'.bindings.get? name = some (.function body) := by
  have hframe := (steps_runTokens fuel ts).frame s m
  rw [hdone] at hframe
  obtain ⟨b, hb', halike⟩ := hframe.bindings name _ hb
  cases halike
  exact hb'

/-- **The body of a function can stand in the place of its name.** A row in which a function is
named that does not end because calls are nested too deeply ends in the same way, on the same
machine, when the body of the function stands there. In particular a row that ends so at some depth
ends in the same way at every smaller one. -/
theorem runTokens_body_in_place (fuel : Nat) (s : Scene) (m : Machine) :
    (∀ (name : Text) (body before after : List Token),
      m.bindings.get? name = some (.function body) →
      (runTokens (runName fuel) (before ++ .name name :: after) s m).IsUncut →
      runTokens (runName fuel) (before ++ body ++ after) s m =
        runTokens (runName fuel) (before ++ .name name :: after) s m) ∧
    ∀ (ts : List Token) (depth : Nat), depth ≤ s.depth →
      (runTokens (runName fuel) ts s m).IsUncut →
      runTokens (runName fuel) ts { s with depth := depth } m =
        runTokens (runName fuel) ts s m := by
  refine ⟨fun name body before after hb huncut => ?_, fun ts depth hdepth huncut => ?_⟩
  · rw [runTokens_append, Run.bind_apply] at huncut
    rw [List.append_assoc, runTokens_append, Run.bind_apply, runTokens_append _ before,
      Run.bind_apply]
    cases hbefore : runTokens (runName fuel) before s m with
    | failed f m' => rfl
    | unfinished => rfl
    | done u m' =>
      rw [hbefore] at huncut
      dsimp only at huncut ⊢
      have hb' : m'.bindings.get? name = some (.function body) := get?_function_of_done hb hbefore
      have hcall : runTokens (runName fuel) (.name name :: after) s m' =
          (do runName fuel name; runTokens (runName fuel) after : Run Unit) s m' := rfl
      rw [hcall, Run.bind_apply] at huncut
      rw [hcall, runTokens_append, Run.bind_apply, Run.bind_apply]
      have hname : (runName fuel name s m').IsUncut := by
        cases hrun : runName fuel name s m' with
        | done _ _ => trivial
        | failed _ _ =>
          rw [hrun] at huncut
          exact huncut
        | unfinished =>
          rw [hrun] at huncut
          cases huncut
      rw [runTokens_body hb' hname]
  · exact rises_runTokens fuel ts s m depth hdepth huncut

/-- A machine with a function that writes a text twice, and a text on the stack. -/
def Machine.doublingSample : Machine where
  bindings := initialBindings ++
    [("double".toList, .function [.name "duplicate$".toList, .name "*".toList])]
  stack := [.string "ab".toList]
  sink := { answers := .willing }

/-- Just below the bound a call is let in. The sum behind it fails with the text that the call left,
in a row with the body, and also when no calls are going on. -/
theorem body_in_place_doublingSample :
    runTokens (runName 3)
        ([.name "double".toList] ++ [.name "duplicate$".toList, .name "*".toList] ++
          [.integer 1, .name "+".toList])
        { depth := 499 } Machine.doublingSample =
      .failed (.typeMismatch "+".toList .integer .string)
        { Machine.doublingSample with stack := [] } ∧
    runTokens (runName 3)
        [.name "double".toList, .name "double".toList, .integer 1, .name "+".toList]
        { depth := 0 } Machine.doublingSample =
      .failed (.typeMismatch "+".toList .integer .string)
        { Machine.doublingSample with stack := [] } := by
  have hrun : runTokens (runName 3)
      [.name "double".toList, .name "double".toList, .integer 1, .name "+".toList]
      { depth := 499 } Machine.doublingSample =
        .failed (.typeMismatch "+".toList .integer .string)
          { Machine.doublingSample with stack := [] } := rfl
  have huncut : (runTokens (runName 3)
      [.name "double".toList, .name "double".toList, .integer 1, .name "+".toList]
      { depth := 499 } Machine.doublingSample).IsUncut := by
    rw [hrun]
    exact id
  constructor
  · rw [← hrun]
    exact (runTokens_body_in_place 3 { depth := 499 } Machine.doublingSample).1 "double".toList _
      [.name "double".toList] [.integer 1, .name "+".toList] rfl huncut
  · rw [← hrun]
    exact (runTokens_body_in_place 3 { depth := 499 } Machine.doublingSample).2 _ 0
      (Nat.zero_le _) huncut

end Bibliography.Style
