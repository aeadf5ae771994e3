import Bibliography.Proofs.Run.Frame
import Bibliography.Proofs.Run.Vocabulary

set_option autoImplicit false

/-! # How deep runs nest

Calls of style functions are counted, and `maxDepth` bounds them. What `if$` runs is not counted:
it takes two values from the stack and runs one of them, and a value can be one that contains the
very `if$`. Where both values are always branches that stand directly before the `if$` in the text
(`Token.areOrderly`), that can not happen: the tokens of a branch are a part of the row that is
running, so between two calls runs nest no deeper than blocks do in the text.

This gives a bound on the fuel that orderly rows need (`fuelOf`). It grows with the calls that may
still be made and with the height of the blocks, and nothing else: not with the stack, the
variables or the database.

Main statements: `rowsHalt`, `halts_runName`.
-/

namespace Bibliography.Style

/-! ## Runs that end -/

/-- The outcome of a run that has an end, well or with a fault. -/
def Outcome.IsOver {α : Type} : Outcome α → Prop
  | .done _ _ | .failed _ _ => True
  | .unfinished => False

def Run.HaltsAt {α : Type} (s : Scene) (m : Machine) (x : Run α) : Prop := (x s m).IsOver

/-- A run that always ends. -/
def Run.Halts {α : Type} (x : Run α) : Prop := ∀ s m, x.HaltsAt s m

namespace Run

variable {α β : Type}

theorem HaltsAt.bind {x : Run α} {f : α → Run β} {s : Scene} {m : Machine} (hx : x.HaltsAt s m)
    (hf : ∀ a m', x s m = .done a m' → (f a).HaltsAt s m') : (x >>= f).HaltsAt s m := by
  rw [HaltsAt] at hx
  rw [HaltsAt, bind_apply]
  cases hxs : x s m with
  | done a m' => exact hf a m' hxs
  | failed e m' => trivial
  | unfinished =>
    rw [hxs] at hx
    cases hx

namespace Halts

theorem bind {x : Run α} {f : α → Run β} (hx : x.Halts) (hf : ∀ a, (f a).Halts) :
    (x >>= f).Halts :=
  fun s m => (hx s m).bind fun a m' _ => hf a s m'

theorem give (a : α) : (Run.give a).Halts := fun _ _ => trivial

theorem fail (f : Fault) : (Run.fail f : Run α).Halts := fun _ _ => trivial

theorem change (f : Machine → Machine) : (Run.change f).Halts := fun _ _ => trivial

theorem pop : Run.pop.Halts := by
  intro s m
  rw [HaltsAt, Run.pop]
  split <;> trivial

/-- What plain functions are made of ends. -/
theorem plain : Run.Plain @Run.Halts :=
  Run.Basic.plain
    { give := give
      bind := bind
      fail := fail
      scene := fun _ _ => trivial
      bindings := fun _ _ => trivial
      variablesOf := fun _ _ _ => trivial
      setBinding := fun _ _ => change _
      setVariables := fun _ _ => change _
      push := fun _ => change _
      pop := pop
      report := fun _ => change _ }

theorem ofExcept {α : Type} (r : Except Fault α) : (Run.ofExcept r).Halts := by
  cases r with
  | ok a => exact give a
  | error f => exact fail f

theorem emit (piece : Text) : (Run.emit piece).Halts := by
  intro s m
  rw [HaltsAt, Run.emit]
  split <;> trivial

theorem stack : Run.stack.Halts := bind (fun _ _ => trivial) fun _ => change _

theorem newline : Run.newline.Halts :=
  plain.newline (fun _ _ => trivial) (fun _ _ => trivial) emit

/-- Every function that runs no others ends. -/
theorem builtin (call : Text → Run Unit) (turns : Nat) {b : Builtin}
    (hb : b.runsOthers = false) : (runBuiltin call turns b).Halts := by
  cases b with
  | callType | ifThenElse | «while» => cases hb
  | stack => exact stack
  | newline => exact newline
  | write => exact bind plain.popString fun _ => change _
  | _ => exact plain.builtin call turns rfl

end Halts

end Run

/-! ## Orderly rows -/

namespace Token

/-- A token that puts something on the stack that can be run. -/
def isBranch : Token → Bool
  | .block _ | .quoted _ => true
  | .integer _ | .string _ | .name _ => false

mutual

/-- A token that stands directly behind `k` branches keeps order: `if$` has two branches before it,
no reference leads to it, and there are no loops. -/
def isOrderly (k : Nat) : Token → Bool
  | .name n => if n = "if$".toList then decide (2 ≤ k) else n != "while$".toList
  | .quoted n => n != "if$".toList && n != "while$".toList
  | .block body => areOrderly 0 body
  | .integer _ | .string _ => true

/-- A row of tokens that stands directly behind `k` branches keeps order. -/
def areOrderly (k : Nat) : List Token → Bool
  | [] => true
  | t :: ts => isOrderly k t && areOrderly (if t.isBranch then k + 1 else 0) ts

end

mutual

def height : Token → Nat
  | .block body => heights body + 1
  | .integer _ | .string _ | .name _ | .quoted _ => 0

def heights : List Token → Nat
  | [] => 0
  | t :: ts => max (height t) (heights ts)

end

end Token

/-- A name that does not lead to the choice between branches or to a loop. -/
def IsUnguarded (name : Text) : Prop := name ≠ "if$".toList ∧ name ≠ "while$".toList

/-- A name that leads to no built-in function that runs others. -/
def IsDirect (name : Text) : Prop := IsUnguarded name ∧ name ≠ "call.type$".toList

instance (name : Text) : Decidable (IsUnguarded name) := inferInstanceAs (Decidable (_ ∧ _))

instance (name : Text) : Decidable (IsDirect name) := inferInstanceAs (Decidable (_ ∧ _))

/-- A value that a branch of a height below `h` puts on the stack. -/
def Value.IsBranch (h : Nat) : Value → Prop
  | .function body => Token.areOrderly 0 body = true ∧ Token.heights body < h
  | .reference name => IsUnguarded name
  | .integer _ | .string _ | .missing _ => False

/-- The `k` values on top of the stack are branches. -/
def Machine.HasBranches (h k : Nat) (m : Machine) : Prop :=
  ∃ vs rest, m.stack = vs ++ rest ∧ vs.length = k ∧ ∀ v ∈ vs, v.IsBranch h

theorem Machine.hasBranches_zero (h : Nat) (m : Machine) : m.HasBranches h 0 :=
  ⟨[], m.stack, rfl, rfl, List.forall_mem_nil _⟩

theorem Machine.HasBranches.push {h k : Nat} {m : Machine} (hm : m.HasBranches h k) {v : Value}
    (hv : v.IsBranch h) : ({ m with stack := v :: m.stack } : Machine).HasBranches h (k + 1) := by
  obtain ⟨vs, rest, hstack, hlength, hvs⟩ := hm
  exact ⟨v :: vs, rest, by simp [hstack], by simp [hlength], List.forall_mem_cons.2 ⟨hv, hvs⟩⟩

/-! ## Orderly machines -/

/-- A built-in function is bound to its own name, and the body of a function is orderly and no
higher than `h`. -/
def Binding.IsOrderly (h : Nat) (name : Text) : Binding → Prop
  | .builtin b => name = b.name.toList
  | .function body => Token.areOrderly 0 body = true ∧ Token.heights body ≤ h
  | .integer _ | .string _ | .field | .entryInteger | .entryString => True

def Machine.Orderly (h : Nat) (m : Machine) : Prop :=
  ∀ name b, m.bindings.get? name = some b → b.IsOrderly h name

theorem Machine.Orderly.of_frame {h : Nat} {current : Option Text} {m m' : Machine}
    (hm : m.Orderly h) (hframe : m.Frame current m') : m'.Orderly h := by
  intro name b' hb'
  obtain ⟨b, hb, halike⟩ := hframe.exists_alike hb'
  have horderly := hm name b hb
  cases halike with
  | builtin _ | function _ => exact horderly
  | integer _ _ | string _ _ | field | entryInteger | entryString => trivial

/-- What a run leaves is orderly, if it started so. -/
theorem Machine.Orderly.of_done {α : Type} {x : Run α} (hx : x.Steps) {h : Nat} {s : Scene}
    {m m' : Machine} (hm : m.Orderly h) {a : α} (hdone : x s m = .done a m') : m'.Orderly h := by
  have hframe := hx.frame s m
  rw [hdone] at hframe
  exact hm.of_frame hframe

/-! ## Scenes -/

/-- A scene in which no more than `calls` calls can be nested and the type of the current entry
leads to no built-in function that runs others. -/
structure Scene.Permits (calls : Nat) (s : Scene) : Prop where
  depth : maxDepth ≤ s.depth + calls
  kind : ∀ e, s.current.bind s.data.entry? = some e → IsDirect e.kind

/-- The fuel that is enough for `calls` nested calls of functions with blocks of the height `h`. -/
def fuelOf (h calls : Nat) : Nat := calls * (h + 3)

theorem fuelOf_succ (h calls : Nat) : fuelOf h (calls + 1) = fuelOf h calls + h + 3 := by
  rw [fuelOf, Nat.succ_mul]
  rfl

/-- Orderly rows end, if they are not higher than `k` and there is fuel. -/
def RowsHalt (h calls k : Nat) : Prop :=
  ∀ (s : Scene) (m : Machine) (fuel : Nat) (ts : List Token), s.Permits calls → m.Orderly h →
    Token.areOrderly 0 ts = true → Token.heights ts ≤ k → fuelOf h calls + k + 3 ≤ fuel →
    (runTokens (runName fuel) ts).HaltsAt s m

/-! ## Names -/

theorem haltsAt_runName {fuel : Nat} {name : Text} {s : Scene} {m : Machine}
    (h : ∀ b, m.bindings.get? name = some b →
      (runBinding (runName fuel) fuel name b).HaltsAt s m) :
    (runName (fuel + 1) name).HaltsAt s m := by
  rw [Run.HaltsAt]
  cases hb : m.bindings.get? name with
  | none =>
    rw [runName_of_unbound hb]
    trivial
  | some b =>
    rw [runName_of_get? hb]
    exact h b hb

section

variable {h calls : Nat} {s : Scene} {m : Machine}

/-- What a name is bound to ends, if it is no function that runs others and bodies end. -/
theorem haltsAt_runBinding (hrows : ∀ c, calls = c + 1 → RowsHalt h c h) (hs : s.Permits calls)
    (hm : m.Orderly h) {fuel : Nat} (hfuel : fuelOf h calls ≤ fuel) {name : Text} {b : Binding}
    (hb : m.bindings.get? name = some b) (hplain : ∀ c, b = .builtin c → c.runsOthers = false) :
    (runBinding (runName fuel) fuel name b).HaltsAt s m := by
  cases b with
  | builtin c => exact Run.Halts.builtin _ fuel (hplain c rfl) _ m
  | function body =>
    obtain ⟨horderly, hheight⟩ := hm name _ hb
    rw [runBinding, Run.HaltsAt, Run.calling_eq, Run.calling_apply]
    split
    · trivial
    · next hdepth =>
      -- a call that is let in leaves one call less to those that it makes
      have hpositive : calls ≠ 0 := by
        rintro rfl
        exact hdepth hs.depth
      obtain ⟨c, rfl⟩ := Nat.exists_eq_succ_of_ne_zero hpositive
      have hinner : Scene.Permits c { s with depth := s.depth + 1 } := by
        refine ⟨?_, hs.kind⟩
        have := hs.depth
        dsimp only
        omega
      have hbound : fuelOf h c + h + 3 ≤ fuel := by
        rw [← fuelOf_succ]
        exact hfuel
      exact hrows c rfl _ m fuel body hinner hm horderly hheight hbound
  | integer n => trivial
  | string t => trivial
  | field => exact Run.Halts.plain.bind (Run.Halts.plain.fieldValue name) (fun _ => .change _) s m
  | entryInteger | entryString =>
    exact Run.Halts.plain.bind (Run.Halts.plain.currentVariables name) (fun _ => .change _) s m

/-- A name that leads to no function that runs others ends. -/
theorem haltsAt_direct (hrows : ∀ c, calls = c + 1 → RowsHalt h c h) (hs : s.Permits calls)
    (hm : m.Orderly h) {fuel : Nat} (hfuel : fuelOf h calls + 1 ≤ fuel) {name : Text}
    (hname : IsDirect name) : (runName fuel name).HaltsAt s m := by
  obtain ⟨fuel, rfl⟩ : ∃ f, fuel = f + 1 := ⟨fuel - 1, by omega⟩
  refine haltsAt_runName fun b hb => haltsAt_runBinding hrows hs hm (by omega) hb ?_
  rintro c rfl
  obtain rfl : name = c.name.toList := hm name _ hb
  obtain ⟨⟨hif, hwhile⟩, htype⟩ := hname
  cases c with
  | ifThenElse => exact absurd rfl hif
  | «while» => exact absurd rfl hwhile
  | callType => exact absurd rfl htype
  | _ => rfl

/-- The function for the type of an entry has the name of the type, or is the one for all others. -/
theorem handlerName_done {m' : Machine} {name : Text} (h : Run.handlerName s m = .done name m') :
    m' = m ∧ (name = "default.type".toList ∨
      ∃ e, s.current.bind s.data.entry? = some e ∧ name = e.kind) := by
  simp only [Run.handlerName, Run.currentEntry, Run.bind_apply, Run.activeName_apply,
    Run.scene_apply] at h
  cases he : s.current.bind s.data.entry? with
  | none =>
    rw [he] at h
    cases h
  | some e =>
    rw [he] at h
    simp only [Run.pure_apply, Run.bindings_apply] at h
    split at h
    · cases h
      exact ⟨rfl, Or.inr ⟨e, rfl, rfl⟩⟩
    · split at h
      · cases h
        exact ⟨rfl, Or.inl rfl⟩
      · cases h

/-- A name that does not lead to the choice between branches or to a loop ends. -/
theorem haltsAt_unguarded (hrows : ∀ c, calls = c + 1 → RowsHalt h c h) (hs : s.Permits calls)
    (hm : m.Orderly h) {fuel : Nat} (hfuel : fuelOf h calls + 2 ≤ fuel) {name : Text}
    (hname : IsUnguarded name) : (runName fuel name).HaltsAt s m := by
  by_cases htype : name = "call.type$".toList
  · obtain ⟨fuel, rfl⟩ : ∃ f, fuel = f + 1 := ⟨fuel - 1, by omega⟩
    refine haltsAt_runName fun b hb => ?_
    by_cases hcall : b = .builtin .callType
    · subst hcall
      have hinner : Scene.Permits calls { s with active := some .callType } := ⟨hs.depth, hs.kind⟩
      -- the function for the type runs others only if it is a style function
      refine Run.HaltsAt.bind (Run.Halts.plain.handlerName _ m) fun handler m' hdone => ?_
      obtain ⟨rfl, hhandler⟩ := handlerName_done hdone
      refine haltsAt_direct hrows hinner hm (by omega) ?_
      rcases hhandler with rfl | ⟨e, he, rfl⟩
      · decide
      · exact hs.kind e he
    · refine haltsAt_runBinding hrows hs hm (by omega) hb ?_
      rintro c rfl
      have hc : name = c.name.toList := hm name _ hb
      cases c with
      | ifThenElse => exact absurd hc hname.1
      | «while» => exact absurd hc hname.2
      | callType => exact absurd rfl hcall
      | _ => rfl
  · exact haltsAt_direct hrows hs hm (by omega) ⟨hname, htype⟩

/-! ## Rows -/

/-- A branch ends if the rows in branches do. -/
theorem haltsAt_branch {k : Nat} (hrows : ∀ c, calls = c + 1 → RowsHalt h c h)
    (hinner : ∀ k', k = k' + 1 → RowsHalt h calls k') (hs : s.Permits calls) (hm : m.Orderly h)
    {fuel : Nat} (hfuel : fuelOf h calls + k + 2 ≤ fuel) {v : Value} (hv : v.IsBranch k) :
    (runValue (runName fuel) v).HaltsAt s m := by
  cases v with
  | function body =>
    obtain ⟨horderly, hheight⟩ := hv
    obtain ⟨k, rfl⟩ : ∃ k', k = k' + 1 := ⟨k - 1, by omega⟩
    exact hinner k rfl s m fuel body hs hm horderly (by omega) (by omega)
  | reference name => exact haltsAt_unguarded hrows hs hm (by omega) hv
  | integer _ | string _ | missing _ => cases hv

theorem popRunnable_of_isBranch {k : Nat} {v : Value} {vs : List Value} (hstack : m.stack = v :: vs)
    (hv : v.IsBranch k) : Run.popRunnable s m = .done v { m with stack := vs } := by
  cases v with
  | function body => simp [Run.popRunnable, Run.pop, hstack]
  | reference name => simp [Run.popRunnable, Run.pop, hstack]
  | integer _ | string _ | missing _ => cases hv

/-- The choice between two branches ends if both do. -/
theorem haltsAt_choice {k : Nat} {call : Text → Run Unit}
    (hrun : ∀ v m', v.IsBranch k → m'.Orderly h → (runValue call v).HaltsAt s m')
    (hm : m.Orderly h) {otherwise thenValue : Value} {vs : List Value}
    (hstack : m.stack = otherwise :: thenValue :: vs)
    (hotherwise : otherwise.IsBranch k) (hthen : thenValue.IsBranch k) :
    (runIf call).HaltsAt s m := by
  refine Run.HaltsAt.bind (Run.Halts.plain.popRunnable s m) fun v m₁ hfirst => ?_
  cases (popRunnable_of_isBranch hstack hotherwise).symm.trans hfirst
  refine Run.HaltsAt.bind (Run.Halts.plain.popRunnable s _) fun v m₂ hsecond => ?_
  cases (popRunnable_of_isBranch rfl hthen).symm.trans hsecond
  refine Run.HaltsAt.bind (Run.Halts.plain.popInteger s _) fun n m₃ hthird => ?_
  have hpopped : ({ m with stack := vs } : Machine).Orderly h := hm
  have hm₃ : m₃.Orderly h := hpopped.of_done Run.Steps.closed.popInteger hthird
  split
  · exact hrun thenValue m₃ hthen hm₃
  · exact hrun otherwise m₃ hotherwise hm₃

/-- With two branches on the stack `if$` ends. -/
theorem haltsAt_ifThenElse {j k : Nat} (hrows : ∀ c, calls = c + 1 → RowsHalt h c h)
    (hinner : ∀ k', k = k' + 1 → RowsHalt h calls k') (hs : s.Permits calls) (hm : m.Orderly h)
    (hbranches : m.HasBranches k j) (hj : 2 ≤ j) {fuel : Nat}
    (hfuel : fuelOf h calls + k + 3 ≤ fuel) : (runName fuel "if$".toList).HaltsAt s m := by
  obtain ⟨fuel, rfl⟩ : ∃ f, fuel = f + 1 := ⟨fuel - 1, by omega⟩
  refine haltsAt_runName fun b hb => ?_
  by_cases hchoice : b = .builtin .ifThenElse
  · subst hchoice
    obtain ⟨vs, rest, hstack, hlength, hvs⟩ := hbranches
    obtain ⟨otherwise, thenValue, vs, rfl⟩ : ∃ a b cs, vs = a :: b :: cs := by
      match vs, hlength with
      | a :: b :: cs, _ => exact ⟨a, b, cs, rfl⟩
      | [a], hlength =>
        rw [List.length_singleton] at hlength
        omega
      | [], hlength =>
        rw [List.length_nil] at hlength
        omega
    simp only [List.forall_mem_cons] at hvs
    obtain ⟨hotherwise, hthen, -⟩ := hvs
    have hscene : Scene.Permits calls { s with active := some .ifThenElse } := ⟨hs.depth, hs.kind⟩
    have hrun : ∀ v m', v.IsBranch k → m'.Orderly h →
        (runValue (runName fuel) v).HaltsAt
          { s with active := some .ifThenElse } m' :=
      fun v m' hv hm' => haltsAt_branch hrows hinner hscene hm' (by omega) hv
    exact haltsAt_choice hrun hm hstack hotherwise hthen
  · refine haltsAt_runBinding hrows hs hm (by omega) hb ?_
    rintro c rfl
    have hc : "if$".toList = c.name.toList := hm _ _ hb
    cases c with
    | ifThenElse => exact absurd rfl hchoice
    | «while» | callType => exact absurd hc (by decide)
    | _ => rfl

/-- An orderly row that stands behind `j` branches ends, if these are on the stack. -/
theorem haltsAt_row {k : Nat} (hrows : ∀ c, calls = c + 1 → RowsHalt h c h)
    (hinner : ∀ k', k = k' + 1 → RowsHalt h calls k') (hs : s.Permits calls) {fuel : Nat}
    (hfuel : fuelOf h calls + k + 3 ≤ fuel) {ts : List Token} {j : Nat}
    (horderly : Token.areOrderly j ts = true) (hheight : Token.heights ts ≤ k) (hm : m.Orderly h)
    (hbranches : m.HasBranches k j) : (runTokens (runName fuel) ts).HaltsAt s m := by
  induction ts generalizing j m with
  | nil => trivial
  | cons t ts ih =>
    rw [Token.areOrderly, Bool.and_eq_true] at horderly
    obtain ⟨ht, hts⟩ := horderly
    rw [Token.heights, Nat.max_le] at hheight
    obtain ⟨hheight, hheights⟩ := hheight
    cases t with
    | integer _ | string _ =>
      refine Run.HaltsAt.bind (Run.Halts.change _ s m) fun _ m' hdone => ?_
      cases hdone
      exact ih hts hheights hm (Machine.hasBranches_zero k _)
    | block body =>
      rw [Token.height] at hheight
      have hbranch : Value.IsBranch k (.function body) := ⟨ht, by omega⟩
      refine Run.HaltsAt.bind (Run.Halts.change _ s m) fun _ m' hdone => ?_
      cases hdone
      exact ih hts hheights hm (hbranches.push hbranch)
    | quoted name =>
      have hname : Value.IsBranch k (.reference name) := by
        simpa [Token.isOrderly, Value.IsBranch, IsUnguarded] using ht
      refine Run.HaltsAt.bind (Run.Halts.plain.refer name s m) fun _ m' hdone => ?_
      rw [Run.once_eq, Run.refer, Run.bind_apply, Run.bindings_apply] at hdone
      dsimp only at hdone
      split at hdone
      · cases hdone
        exact ih hts hheights hm (hbranches.push hname)
      · cases hdone
    | name name =>
      have hhalts : (runName fuel name).HaltsAt s m := by
        rw [Token.isOrderly] at ht
        split at ht
        · next hif =>
          subst hif
          exact haltsAt_ifThenElse hrows hinner hs hm hbranches (of_decide_eq_true ht) hfuel
        · next hif =>
          exact haltsAt_unguarded hrows hs hm (by omega) ⟨hif, by simpa using ht⟩
      refine Run.HaltsAt.bind hhalts fun _ m' hdone => ?_
      exact ih hts hheights (hm.of_done (steps_runName fuel name) hdone)
        (Machine.hasBranches_zero k _)

end

/-- **Orderly rows end.** The fuel that they need depends on the calls that may still be nested and
on the height of blocks, and on nothing else. -/
theorem rowsHalt (h calls k : Nat) : RowsHalt h calls k := by
  have hstep : ∀ calls, (∀ c, calls = c + 1 → RowsHalt h c h) → ∀ k, RowsHalt h calls k := by
    intro calls hrows k
    induction k with
    | zero =>
      intro s m fuel ts hs hm horderly hheight hfuel
      refine haltsAt_row hrows (fun k' hk => ?_) hs hfuel horderly hheight hm
        (Machine.hasBranches_zero 0 m)
      cases hk
    | succ k ih =>
      intro s m fuel ts hs hm horderly hheight hfuel
      refine haltsAt_row hrows (fun k' hk => ?_) hs hfuel horderly hheight hm
        (Machine.hasBranches_zero (k + 1) m)
      cases hk
      exact ih
  -- on the calls that are left, and for as many calls on the height of the row
  induction calls generalizing k with
  | zero =>
    refine hstep 0 (fun c hc => ?_) k
    cases hc
  | succ calls ih =>
    refine hstep (calls + 1) (fun c hc => ?_) k
    cases hc
    exact ih h

/-- **A name ends that does not lead to the choice between branches or to a loop.** -/
theorem halts_runName {h calls : Nat} {s : Scene} {m : Machine} (hs : s.Permits calls)
    (hm : m.Orderly h) {fuel : Nat} (hfuel : fuelOf h calls + 2 ≤ fuel) {name : Text}
    (hname : IsUnguarded name) : (runName fuel name).HaltsAt s m :=
  haltsAt_unguarded (fun c _ => rowsHalt h c h) hs hm hfuel hname

end Bibliography.Style
