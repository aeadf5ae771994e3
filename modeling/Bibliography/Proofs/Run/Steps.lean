import Bibliography.Style.Execution

set_option autoImplicit false

/-! # Runs, one step at a time

What the primitive runs do in a scene and on a machine, as equations for `simp`, and the equations
by which names are run. Behind these, runs need not be opened. -/

namespace Bibliography.Style

namespace Run

variable {α β : Type}

/-! ## Primitive runs -/

@[simp] theorem pure_apply (a : α) (s : Scene) (m : Machine) :
    (pure a : Run α) s m = .done a m := rfl

@[simp] theorem give_apply (a : α) (s : Scene) (m : Machine) : give a s m = .done a m := rfl

@[simp] theorem bind_apply (x : Run α) (f : α → Run β) (s : Scene) (m : Machine) :
    (x >>= f) s m = match x s m with
      | .done a m => f a s m
      | .failed e m => .failed e m
      | .unfinished => .unfinished := rfl

@[simp] theorem fail_apply (f : Fault) (s : Scene) (m : Machine) :
    (fail f : Run α) s m = .failed f m := rfl

@[simp] theorem ofExcept_ok (a : α) : ofExcept (.ok a) = give a := rfl

@[simp] theorem ofExcept_error (f : Fault) : (ofExcept (.error f) : Run α) = fail f := rfl

@[simp] theorem scene_apply (s : Scene) (m : Machine) : scene s m = .done s m := rfl

@[simp] theorem machine_apply (s : Scene) (m : Machine) : machine s m = .done m m := rfl

@[simp] theorem change_apply (f : Machine → Machine) (s : Scene) (m : Machine) :
    change f s m = .done () (f m) := rfl

@[simp] theorem within_apply (f : Scene → Scene) (x : Run α) (s : Scene) (m : Machine) :
    within f x s m = x (f s) m := rfl

@[simp] theorem activeName_apply (s : Scene) (m : Machine) :
    activeName s m = .done s.activeName m := rfl

@[simp] theorem current_apply (s : Scene) (m : Machine) : current s m = .done s.current m := rfl

@[simp] theorem preamble_apply (s : Scene) (m : Machine) :
    preamble s m = .done s.data.preamble.flatten m := rfl

@[simp] theorem bindings_apply (s : Scene) (m : Machine) :
    bindings s m = .done m.bindings m := rfl

@[simp] theorem push_apply (v : Value) (s : Scene) (m : Machine) :
    push v s m = .done () { m with stack := v :: m.stack } := rfl

@[simp] theorem running_apply (b : Builtin) (x : Run α) (s : Scene) (m : Machine) :
    running b x s m = x { s with active := some b } m := rfl

theorem calling_apply (name : Text) (x : Run Unit) (s : Scene) (m : Machine) :
    calling name x s m = if maxDepth ≤ s.depth then .failed (.recursionLimit name) m
      else x { s with depth := s.depth + 1 } m := by
  rw [calling, bind_apply, scene_apply]
  dsimp only
  split <;> rfl

/-! ## Following a run by the run itself -/

@[simp] theorem once_eq (b? : Option Builtin) (x : Run α) : Execution.once b? x = x := rfl

@[simp] theorem running_eq (b : Builtin) (x : Run Unit) : Execution.running b x = running b x := rfl

@[simp] theorem calling_eq (name : Text) (x : Run Unit) :
    Execution.calling name x = calling name x := rfl

/-! ## The current entry -/

theorem currentEntry_of_entry {s : Scene} {c : Text} {e : Entry} (hc : s.current = some c)
    (he : s.data.entry? c = some e) (function : Text) (m : Machine) :
    currentEntry function s m = .done e m := by
  simp [currentEntry, hc, he]

theorem fieldValue_of_entry {s : Scene} {c : Text} {e : Entry} (hc : s.current = some c)
    (he : s.data.entry? c = some e) (name : Text) (m : Machine) :
    fieldValue name s m = .done
      (if name = "crossref".toList ∧ ¬ s.visibleCrossrefs.contains e.key.fold then .missing name
        else .ofField (s.data.field e name)) m := by
  simp only [fieldValue, bind_apply, currentEntry_of_entry hc he, scene_apply]
  split <;> rfl

end Run

/-! ## Names -/

theorem Builtin.mem_all (b : Builtin) : b ∈ Builtin.all := by
  cases b <;> decide

theorem nodup_names_initialBindings : initialBindings.names.Nodup := by decide +kernel

/-- Before any declaration, the name of a built-in function stands for the function. -/
theorem get?_initialBindings (b : Builtin) :
    initialBindings.get? b.name.toList = some (.builtin b) :=
  Table.get?_eq_some_of_mem nodup_names_initialBindings
    (List.mem_append_left _ (List.mem_map.2 ⟨b, b.mem_all, rfl⟩))

/-- Before any declaration, names are those of built-in functions and of three variables. -/
theorem eq_of_initialBindings {name : Text} {b : Binding}
    (h : initialBindings.get? name = some b) :
    (∃ c : Builtin, name = c.name.toList ∧ b = .builtin c) ∨ (∃ n, b = .integer n) ∨
      b = .entryString := by
  rcases List.mem_append.1 (Table.mem_of_get?_eq_some h) with hmem | hmem
  · obtain ⟨c, -, heq⟩ := List.mem_map.1 hmem
    obtain ⟨rfl, rfl⟩ := Prod.mk.inj heq
    exact Or.inl ⟨c, rfl, rfl⟩
  · simp only [List.mem_cons, List.not_mem_nil, or_false, Prod.mk.injEq] at hmem
    obtain ⟨-, rfl⟩ | ⟨-, rfl⟩ | ⟨-, rfl⟩ := hmem
    · exact Or.inr (Or.inl ⟨_, rfl⟩)
    · exact Or.inr (Or.inl ⟨_, rfl⟩)
    · exact Or.inr (Or.inr rfl)

theorem runName_of_get? {name : Text} {m : Machine} {b : Binding}
    (hb : m.bindings.get? name = some b) (fuel : Nat) (s : Scene) :
    runName (fuel + 1) name s m = runBinding (runName fuel) fuel name b s m := by
  rw [runName, executeName, Run.bind_apply, Run.once_eq, Run.bindings_apply]
  dsimp only
  rw [hb]
  rfl

theorem runName_of_unbound {name : Text} {m : Machine} (hb : m.bindings.get? name = none)
    (fuel : Nat) (s : Scene) :
    runName (fuel + 1) name s m = .failed (.undefinedName name) m := by
  rw [runName, executeName, Run.bind_apply, Run.once_eq, Run.bindings_apply]
  dsimp only
  rw [hb]
  rfl

/-- A name that is bound to a field puts the value of the field on the stack. -/
theorem runName_of_field {fuel : Nat} {name : Text} {s : Scene} {m : Machine} {v : Value}
    (hb : m.bindings.get? name = some .field) (hv : Run.fieldValue name s m = .done v m) :
    runName (fuel + 1) name s m = .done () { m with stack := v :: m.stack } := by
  simp [runName_of_get? hb, runBinding, hv]

end Bibliography.Style
