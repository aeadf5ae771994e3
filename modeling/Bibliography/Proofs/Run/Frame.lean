import Bibliography.Proofs.Run.Closure
import Mathlib.Logic.Relation

set_option autoImplicit false

/-! # What a run can change

A running style changes its machine in steps of few kinds (`Machine.Step`). Everything that a run
does, whether it ends well or with a fault, is a row of such steps (`steps_runName`), so what
every step keeps, every run keeps. What is kept for sure is the frame (`Machine.Frame`): the names
and what kind of thing each is bound to, the bodies of the functions, the variables of the entries
other than the current one; and diagnostics and output are only added to.
-/

namespace Bibliography.Style

/-! ## Steps of a machine -/

/-- One change of a machine while `current` is the key of the current entry. -/
inductive Machine.Step (current : Option Text) (m : Machine) : Machine → Prop where
  | stack (vs : List Value) : Step current m { m with stack := vs }
  | pending (texts : List Text) : Step current m { m with pending := texts }
  /-- Something is reported, but never an error. -/
  | report (d : Diagnostic) (h : d.severity ≠ .error) :
      Step current m { m with diagnostics := m.diagnostics ++ [d] }
  /-- The sink takes a piece or refuses it. -/
  | emit {piece : Text} {r : Except String Unit} {sink : Sink}
      (h : m.sink.write piece = (r, sink)) : Step current m { m with sink := sink }
  /-- A global integer variable gets another value. -/
  | integer {name : Text} {old : Int} (new : Int)
      (h : m.bindings.get? name = some (.integer old)) :
      Step current m { m with bindings := m.bindings.set name (.integer new) }
  /-- A global string variable gets another value. -/
  | string {name : Text} {old : Text} (new : Text)
      (h : m.bindings.get? name = some (.string old)) :
      Step current m { m with bindings := m.bindings.set name (.string new) }
  /-- The variables of the current entry get other values. -/
  | entryVariables {key : Text} (vars : EntryVariables) (h : current = some key) :
      Step current m { m with entryVariables := m.entryVariables.set key.fold vars }

/-- A machine to which rows of steps lead. -/
abbrev Machine.Reaches (current : Option Text) : Machine → Machine → Prop :=
  Relation.ReflTransGen (Machine.Step current)

def Outcome.Ends {α : Type} (R : Machine → Prop) : Outcome α → Prop
  | .done _ m => R m
  | .failed _ m => R m
  | .unfinished => True

theorem Outcome.Ends.imp {α : Type} {R S : Machine → Prop} {o : Outcome α} (h : o.Ends R)
    (hRS : ∀ m, R m → S m) : o.Ends S := by
  cases o with
  | done a m => exact hRS m h
  | failed f m => exact hRS m h
  | unfinished => trivial

/-- A run goes by steps. -/
def Run.Steps {α : Type} (x : Run α) : Prop :=
  ∀ s m, (x s m).Ends (Machine.Reaches s.current m)

namespace Run.Steps

open Relation (ReflTransGen)

variable {α β : Type}

theorem bind {x : Run α} {f : α → Run β} (hx : Steps x) (hf : ∀ a, Steps (f a)) :
    Steps (x >>= f) := by
  intro s m
  have h := hx s m
  rw [bind_apply]
  cases hxs : x s m with
  | done a m' =>
    rw [hxs] at h
    exact (hf a s m').imp fun m'' h' => ReflTransGen.trans h h'
  | failed f m' =>
    rw [hxs] at h
    exact h
  | unfinished => trivial

theorem give (a : α) : Steps (Run.give a) := fun _ _ => ReflTransGen.refl

theorem fail (f : Fault) : Steps (Run.fail f : Run α) := fun _ _ => ReflTransGen.refl

/-- A run that asks for something changes nothing. -/
theorem of_scene {f : Scene → Run α} (hf : ∀ s, Steps (f s)) : Steps (scene >>= f) :=
  bind (fun _ _ => ReflTransGen.refl) hf

theorem currentKey (function : Text) : Steps (Run.currentKey function) := by
  refine bind (fun _ _ => ReflTransGen.refl) fun key? => ?_
  cases key? with
  | none => exact fail _
  | some key => exact give key

theorem currentEntry (function : Text) : Steps (Run.currentEntry function) := by
  refine of_scene fun s => ?_
  split
  · exact give _
  · exact fail _

theorem fieldValue (name : Text) : Steps (Run.fieldValue name) := by
  refine bind (currentEntry name) fun e => of_scene fun s => ?_
  split
  · exact give _
  · exact give _

/-- Variables of entries change for the current entry only, be it that they are there afterwards. -/
theorem currentVariables (name : Text) : Steps (Run.currentVariables name) := by
  intro s m
  cases hc : s.current with
  | none =>
    simp only [Run.currentVariables, Run.currentKey, bind_apply, current_apply, hc, fail_apply]
    exact ReflTransGen.refl
  | some key =>
    simp only [Run.currentVariables, Run.currentKey, bind_apply, current_apply, hc, pure_apply]
    exact ReflTransGen.single (Machine.Step.entryVariables _ rfl)

theorem changeVariables (name : Text) (f : EntryVariables → EntryVariables) :
    Steps (Run.changeVariables name f) := by
  intro s m
  have hvars := currentVariables name s m
  cases hc : s.current with
  | none =>
    simp only [Run.changeVariables, Run.currentKey, bind_apply, current_apply, hc, fail_apply]
    exact ReflTransGen.refl
  | some key =>
    rw [hc] at hvars
    simp only [Run.changeVariables, Run.currentKey, bind_apply, current_apply, hc, pure_apply]
    cases hfound : Run.currentVariables name s m with
    | done found m' =>
      rw [hfound] at hvars
      exact ReflTransGen.tail hvars (Machine.Step.entryVariables _ rfl)
    | failed f m' =>
      rw [hfound] at hvars
      exact hvars
    | unfinished => trivial

theorem setVariable (name : Text) (v : Value) : Steps (Run.setVariable name v) := by
  -- a name keeps its kind because a value is set only where one of that kind is
  intro s m
  simp only [Run.setVariable, bind_apply, bindings_apply]
  cases hb : m.bindings.get? name with
  | none => exact ReflTransGen.refl
  | some b =>
    cases b with
    | integer old =>
      cases v with
      | integer n => exact ReflTransGen.single (Machine.Step.integer n hb)
      | string _ | missing _ | function _ | reference _ => exact ReflTransGen.refl
    | string old =>
      cases ht : v.text? with
      | none => exact ReflTransGen.refl
      | some t => exact ReflTransGen.single (Machine.Step.string t hb)
    | entryInteger =>
      cases v with
      | integer n => exact changeVariables name _ s m
      | string _ | missing _ | function _ | reference _ => exact ReflTransGen.refl
    | entryString =>
      cases ht : v.text? with
      | none => exact ReflTransGen.refl
      | some t => exact changeVariables name _ s m
    | field | builtin _ | function _ => exact ReflTransGen.refl

theorem emit (piece : Text) : Steps (Run.emit piece) := by
  intro s m
  rw [Run.emit]
  split
  · next hw => exact ReflTransGen.single (Machine.Step.emit hw)
  · next hw => exact ReflTransGen.single (Machine.Step.emit hw)

theorem report (d : Diagnostic) (h : d.severity ≠ .error) : Steps (Run.report d) :=
  fun _ _ => ReflTransGen.single (Machine.Step.report d h)

theorem pop : Steps Run.pop := by
  intro s m
  rw [Run.pop]
  split
  · exact ReflTransGen.refl
  · exact ReflTransGen.single (Machine.Step.stack _)

theorem calling (name : Text) {x : Run Unit} (hx : Steps x) : Steps (Run.calling name x) := by
  intro s m
  rw [calling_apply]
  split
  · exact ReflTransGen.refl
  · exact hx { s with depth := s.depth + 1 } m

theorem closed : Run.Closed @Run.Steps where
  give := give
  bind := bind
  fail := fun f _ => fail f
  undefined := fun _ => fail _
  unfinished := fun _ _ => trivial
  activeName := fun _ _ => ReflTransGen.refl
  current := fun _ _ => ReflTransGen.refl
  preamble := fun _ _ => ReflTransGen.refl
  options := fun _ _ => ReflTransGen.refl
  bindings := fun _ _ => ReflTransGen.refl
  push := fun _ _ _ => ReflTransGen.single (Machine.Step.stack _)
  pop := pop
  takeStack := fun _ _ => ReflTransGen.single (Machine.Step.stack [])
  currentEntry := currentEntry
  currentKey := currentKey
  currentVariables := currentVariables
  fieldValue := fieldValue
  setVariable := setVariable
  report := report
  write := fun _ _ _ => ReflTransGen.single (Machine.Step.pending _)
  takeLine := fun _ _ => ReflTransGen.single (Machine.Step.pending [])
  emit := emit
  running := fun _ _ hx _ m => hx _ m
  calling := calling

end Run.Steps

/-- **Every run goes by steps.** This holds of a name with any fuel, and also when it ends with a
fault. -/
theorem steps_runName (fuel : Nat) (name : Text) : (runName fuel name).Steps :=
  Run.Steps.closed.runName fuel name

theorem steps_runTokens (fuel : Nat) (ts : List Token) : (runTokens (runName fuel) ts).Steps :=
  Run.Steps.closed.tokens (steps_runName fuel) ts

theorem steps_runValue (fuel : Nat) (v : Value) : (runValue (runName fuel) v).Steps :=
  Run.Steps.closed.runValue (steps_runName fuel) v

/-! ## The frame -/

/-- Two bindings to one kind of thing; functions also have one body. Only the values of global
variables may differ. -/
inductive Binding.Alike : Binding → Binding → Prop where
  | builtin (b : Builtin) : Alike (.builtin b) (.builtin b)
  | function (body : List Token) : Alike (.function body) (.function body)
  | integer (old new : Int) : Alike (.integer old) (.integer new)
  | string (old new : Text) : Alike (.string old) (.string new)
  | field : Alike .field .field
  | entryInteger : Alike .entryInteger .entryInteger
  | entryString : Alike .entryString .entryString

theorem Binding.Alike.refl (b : Binding) : b.Alike b := by
  cases b <;> constructor

theorem Binding.Alike.trans {a b c : Binding} (h₁ : a.Alike b) (h₂ : b.Alike c) : a.Alike c := by
  cases h₁ <;> cases h₂ <;> constructor

/-- What stays as it is from the machine `m` to the machine `m'` while `current` is the key of the
current entry. -/
structure Machine.Frame (current : Option Text) (m m' : Machine) : Prop where
  names : m'.bindings.names = m.bindings.names
  bindings : ∀ name b, m.bindings.get? name = some b →
    ∃ b', m'.bindings.get? name = some b' ∧ b.Alike b'
  entryVariables : ∀ key, current.map Text.fold ≠ some key →
    m'.entryVariables.get? key = m.entryVariables.get? key
  diagnostics : m.diagnostics <+: m'.diagnostics
  written : m.sink.written <+: m'.sink.written

namespace Machine.Frame

variable {current : Option Text} {m m' m'' : Machine}

theorem refl (current : Option Text) (m : Machine) : Frame current m m where
  names := rfl
  bindings _ b hb := ⟨b, hb, Binding.Alike.refl b⟩
  entryVariables _ _ := rfl
  diagnostics := List.prefix_refl _
  written := List.prefix_refl _

theorem trans (h₁ : Frame current m m') (h₂ : Frame current m' m'') : Frame current m m'' where
  names := h₂.names.trans h₁.names
  bindings name b hb := by
    obtain ⟨b', hb', hbb'⟩ := h₁.bindings name b hb
    obtain ⟨b'', hb'', hb'b''⟩ := h₂.bindings name b' hb'
    exact ⟨b'', hb'', hbb'.trans hb'b''⟩
  entryVariables key hkey := (h₂.entryVariables key hkey).trans (h₁.entryVariables key hkey)
  diagnostics := h₁.diagnostics.trans h₂.diagnostics
  written := h₁.written.trans h₂.written

/-- What a name is bound to when a run has ended it was bound to before, but for the values of
variables. -/
theorem exists_alike (h : Frame current m m') {name : Text} {b' : Binding}
    (hb' : m'.bindings.get? name = some b') :
    ∃ b, m.bindings.get? name = some b ∧ b.Alike b' := by
  have hname : name ∈ m.bindings.names := h.names ▸ Table.mem_names_of_get?_eq_some hb'
  obtain ⟨b, hb⟩ := Option.isSome_iff_exists.1 ((Table.contains_iff_mem_names _ _).2 hname)
  obtain ⟨b'', hb'', halike⟩ := h.bindings name b hb
  rw [hb', Option.some.injEq] at hb''
  exact ⟨b, hb, hb'' ▸ halike⟩

/-- A binding may give way to one of its kind. -/
theorem of_set {name : Text} {old new : Binding} (hb : m.bindings.get? name = some old)
    (halike : old.Alike new) :
    Frame current m { m with bindings := m.bindings.set name new } where
  names := by
    rw [Table.names_set, if_pos (Table.mem_names_of_get?_eq_some hb)]
  bindings other b hother := by
    rw [Table.get?_set]
    by_cases h : other = name
    · subst h
      rw [hb, Option.some.injEq] at hother
      subst hother
      exact ⟨new, if_pos rfl, halike⟩
    · exact ⟨b, by rw [if_neg h, hother], Binding.Alike.refl b⟩
  entryVariables _ _ := rfl
  diagnostics := List.prefix_refl _
  written := List.prefix_refl _

end Machine.Frame

/-- A sink that is handed a piece keeps what it has, and puts the piece behind it or refuses it. -/
theorem Sink.prefix_written_of_write {s s' : Sink} {piece : Text} {r : Except String Unit}
    (h : s.write piece = (r, s')) : s.written <+: s'.written := by
  rw [Sink.write] at h
  split at h
  · cases h
    exact ⟨piece, by simp [Sink.written]⟩
  · cases h
    exact List.prefix_refl _

/-- Every step keeps the frame. -/
theorem Machine.Step.frame {current : Option Text} {m m' : Machine} (h : Step current m m') :
    Frame current m m' := by
  cases h with
  | stack vs => exact { Frame.refl current m with }
  | pending texts => exact { Frame.refl current m with }
  | report d _ => exact { Frame.refl current m with diagnostics := List.prefix_append _ _ }
  | emit h =>
    exact { Frame.refl current m with written := Sink.prefix_written_of_write h }
  | integer new h => exact Frame.of_set h (.integer _ _)
  | string new h => exact Frame.of_set h (.string _ _)
  | @entryVariables key vars h =>
    subst h
    refine { Frame.refl (some key) m with entryVariables := ?_ }
    intro other hother
    have hne : other ≠ key.fold := fun heq => hother (heq ▸ rfl)
    rw [Table.get?_set, if_neg hne]

/-- Rows of steps keep the frame. -/
theorem Machine.Reaches.frame {current : Option Text} {m m' : Machine}
    (h : Machine.Reaches current m m') : Machine.Frame current m m' := by
  induction h with
  | refl => exact Machine.Frame.refl current m
  | tail _ hstep ih => exact ih.trans hstep.frame

/-- A run that goes by steps keeps the frame. -/
theorem Run.Steps.frame {α : Type} {x : Run α} (hx : x.Steps) (s : Scene) (m : Machine) :
    (x s m).Ends (Machine.Frame s.current m) :=
  (hx s m).imp fun _ h => Machine.Reaches.frame h

end Bibliography.Style
