import Bibliography.Proofs.Run.History

set_option autoImplicit false

/-! # Well-scoped runs

A reference to a name is put on the stack only if the name is bound. It may be used much later, but
while functions run no name is added or lost, so it is bound still. A machine is well-scoped if the
references on its stack are to names that are bound, and the functions on its stack and behind names
say only certain names (`Machine.Scoped`). Runs keep machines well-scoped, and the only names
that they find undefined are names that functions say and that are not bound (`Fault.Scoped`).

Functions that run no others hold no surprise: they put no references on the stack but those that
they took from it (`Run.Scoped.modest`). A function that runs others takes them from the stack, or
it is the one for the type of an entry, which looks for a name that is bound.

Main statement: `Tale.Scoped.judgement`.
-/

namespace Bibliography.Style

/-- The vocabulary of some names and everything else there is. -/
def Vocabulary.ofNames (said : Text → Prop) : Vocabulary where
  text _ := True
  name := said
  builtin _ := True

/-- The names that are bound, and those that functions say. -/
structure Scope where
  bound : List Text
  said : Text → Prop

namespace Scope

def words (Γ : Scope) : Vocabulary := .ofNames Γ.said

/-- A name that is bound, or one that functions say. -/
def Has (Γ : Scope) (name : Text) : Prop := name ∈ Γ.bound ∨ Γ.said name

end Scope

/-- A reference is to a name that is bound, and a function says only names that functions say. -/
def Value.Scoped (Γ : Scope) : Value → Prop
  | .reference name => name ∈ Γ.bound
  | .function body => Token.AllWithin Γ.words body
  | .integer _ | .string _ | .missing _ => True

/-- The names of a machine are those of the scope, and the values on its stack and the functions
behind its names are well-scoped. -/
structure Machine.Scoped (Γ : Scope) (m : Machine) : Prop where
  names : m.bindings.names = Γ.bound
  stack : ∀ v ∈ m.stack, v.Scoped Γ
  bodies : ∀ name body, m.bindings.get? name = some (.function body) →
    Token.AllWithin Γ.words body

def Fault.isUndefinedName (f : Fault) : Bool :=
  match f.root with
  | .undefinedName _ => true
  | _ => false

/-- If a name is found undefined, then functions say it and it is not bound. -/
def Fault.Scoped (Γ : Scope) (f : Fault) : Prop :=
  ∀ name, f.root = .undefinedName name → Γ.said name ∧ name ∉ Γ.bound

/-- The machine at the end is well-scoped, as is the fault; the value satisfies `Q`. -/
def Outcome.Scoped {α : Type} (Γ : Scope) (Q : α → Prop) : Outcome α → Prop
  | .done a m => m.Scoped Γ ∧ Q a
  | .failed f m => m.Scoped Γ ∧ f.Scoped Γ
  | .unfinished => True

/-- A run that keeps machines well-scoped and gives values that satisfy `Q`. -/
def Run.Scoped {α : Type} (Γ : Scope) (Q : α → Prop) (x : Run α) : Prop :=
  ∀ (s : Scene) (m : Machine), m.Scoped Γ → (x s m).Scoped Γ Q

variable {Γ : Scope}

theorem Value.Scoped.of_isRunnable {v : Value} (h : v.isRunnable = false) : v.Scoped Γ := by
  cases v with
  | integer _ | string _ | missing _ => trivial
  | function _ | reference _ => cases h

theorem Fault.isUndefinedName_of_isOrdinary {f : Fault} (h : f.isOrdinary = true) :
    f.isUndefinedName = false := by
  cases f with
  | undefinedName _ | inCommand _ _ _ _ => cases h
  | _ => rfl

theorem Fault.Scoped.of_isUndefinedName {f : Fault} (h : f.isUndefinedName = false) :
    f.Scoped Γ := by
  intro name hf
  rw [Fault.isUndefinedName, hf] at h
  cases h

namespace Machine.Scoped

variable {m m' : Machine}

theorem of_stack (h : m.Scoped Γ) {vs : List Value} (hvs : ∀ v ∈ vs, v.Scoped Γ) :
    ({ m with stack := vs } : Machine).Scoped Γ :=
  ⟨h.names, hvs, h.bodies⟩

/-- A name of the scope is bound to something. -/
theorem exists_get? (h : m.Scoped Γ) {name : Text} (hname : name ∈ Γ.bound) :
    ∃ b, m.bindings.get? name = some b := by
  rw [← h.names] at hname
  exact Option.ne_none_iff_exists'.1 fun hb => (Table.get?_eq_none_iff _ _).1 hb hname

/-- Steps of a machine neither bind names nor change functions. -/
theorem of_reaches (h : m.Scoped Γ) {current : Option Text}
    (hsteps : Machine.Reaches current m m') (hstack : ∀ v ∈ m'.stack, v.Scoped Γ) :
    m'.Scoped Γ := by
  have hframe := Machine.Reaches.frame hsteps
  refine ⟨hframe.names.trans h.names, hstack, fun name body hbody => ?_⟩
  obtain ⟨b, hb, halike⟩ := hframe.exists_alike hbody
  cases halike
  exact h.bodies name body hb

end Machine.Scoped

/-! ## Runs -/

namespace Run.Scoped

variable {α β : Type} {Q : α → Prop} {R : β → Prop}

theorem give {a : α} (h : Q a) : Scoped Γ Q (Run.give a) := fun _ _ hm => ⟨hm, h⟩

theorem bind {x : Run α} {f : α → Run β} (hx : Scoped Γ Q x) (hf : ∀ a, Q a → Scoped Γ R (f a)) :
    Scoped Γ R (x >>= f) := by
  intro s m hm
  have h := hx s m hm
  rw [bind_apply]
  cases hxs : x s m with
  | done a m' =>
    rw [hxs] at h
    exact hf a h.2 s m' h.1
  | failed f m' =>
    rw [hxs] at h
    exact h
  | unfinished => trivial

theorem imp {Q' : α → Prop} {x : Run α} (hx : Scoped Γ Q x) (h : ∀ a, Q a → Q' a) :
    Scoped Γ Q' x := by
  intro s m hm
  have hends := hx s m hm
  cases hxs : x s m with
  | done a m' =>
    rw [hxs] at hends
    exact ⟨hends.1, h a hends.2⟩
  | failed f m' =>
    rw [hxs] at hends
    exact hends
  | unfinished => trivial

theorem fail {f : Fault} (h : f.Scoped Γ) : Scoped Γ Q (Run.fail f) := fun _ _ hm => ⟨hm, h⟩

/-- A fault that is not about an undefined name. -/
theorem fail_other {f : Fault} (h : f.isUndefinedName = false) : Scoped Γ Q (Run.fail f) :=
  fail (.of_isUndefinedName h)

theorem activeName : Scoped Γ Anything Run.activeName := fun _ _ hm => ⟨hm, trivial⟩

theorem current : Scoped Γ Anything Run.current := fun _ _ hm => ⟨hm, trivial⟩

theorem scene : Scoped Γ Anything Run.scene := fun _ _ hm => ⟨hm, trivial⟩

theorem bindings : Scoped Γ (·.names = Γ.bound) Run.bindings := fun _ _ hm => ⟨hm, hm.names⟩

theorem push {v : Value} (hv : v.Scoped Γ) : Scoped Γ Anything (Run.push v) :=
  fun _ _ hm => ⟨hm.of_stack (List.forall_mem_cons.2 ⟨hv, hm.stack⟩), trivial⟩

theorem pop : Scoped Γ (Value.Scoped Γ) Run.pop := by
  intro s m hm
  have hstack := hm.stack
  rw [Run.pop]
  split
  · exact ⟨hm, .of_isUndefinedName rfl⟩
  · next v vs hvs =>
    rw [hvs, List.forall_mem_cons] at hstack
    exact ⟨hm.of_stack hstack.2, hstack.1⟩

theorem report (d : Diagnostic) : Scoped Γ Anything (Run.report d) :=
  fun _ _ hm => ⟨⟨hm.names, hm.stack, hm.bodies⟩, trivial⟩

theorem currentEntry (function : Text) : Scoped Γ Anything (Run.currentEntry function) := by
  refine bind scene fun s _ => ?_
  split
  · exact give trivial
  · exact fail_other rfl

theorem currentKey (function : Text) : Scoped Γ Anything (Run.currentKey function) := by
  refine bind current fun key? _ => ?_
  cases key? with
  | none => exact fail_other rfl
  | some key => exact give trivial

theorem variablesOf (key : Text) : Scoped Γ Anything (Run.variablesOf key) :=
  fun _ _ hm => ⟨hm, trivial⟩

theorem setVariables (key : Text) (vars : EntryVariables) :
    Scoped Γ Anything (Run.setVariables key vars) :=
  fun _ _ hm => ⟨⟨hm.names, hm.stack, hm.bodies⟩, trivial⟩

theorem currentVariables (name : Text) : Scoped Γ Anything (Run.currentVariables name) :=
  bind (currentKey name) fun key _ => bind (variablesOf key) fun vars _ =>
    bind (setVariables key vars) fun _ _ => give trivial

/-- The value of a field is a text or missing. -/
theorem fieldValue (name : Text) : Scoped Γ (Value.Scoped Γ) (Run.fieldValue name) := by
  refine bind (currentEntry name) fun e _ => bind scene fun s _ => ?_
  split
  · exact give trivial
  · cases s.data.field e name <;> exact give trivial

theorem popRunnable : Scoped Γ (Value.Scoped Γ) Run.popRunnable := by
  refine bind pop fun v hv => ?_
  cases v with
  | function _ | reference _ => exact give hv
  | integer _ | string _ | missing _ =>
    exact bind activeName fun _ _ => fail_other rfl

/-! ### Assigning -/

/-- Assigning to a name that is bound leaves the stack as it is, and may fail, but not because the
name is undefined. -/
theorem setVariable_of_get? {name : Text} {v : Value} {s : Scene} {m : Machine} {b : Binding}
    (hb : m.bindings.get? name = some b) :
    (∃ m', Run.setVariable name v s m = .done () m' ∧ m'.stack = m.stack) ∨
      ∃ f, Run.setVariable name v s m = .failed f m ∧ f.isUndefinedName = false := by
  have hvariables : ∀ f, (∃ m', Run.changeVariables name f s m = .done () m' ∧
      m'.stack = m.stack) ∨ ∃ fault, Run.changeVariables name f s m = .failed fault m ∧
        fault.isUndefinedName = false := by
    intro f
    cases hc : s.current with
    | none =>
      refine Or.inr ⟨.noCurrentEntry name, ?_, rfl⟩
      simp [Run.changeVariables, Run.currentKey, hc]
    | some key =>
      simp only [Run.changeVariables, Run.currentVariables, Run.currentKey, bind_apply,
        current_apply, hc, pure_apply]
      exact Or.inl ⟨_, rfl, rfl⟩
  simp only [Run.setVariable, bind_apply, bindings_apply, hb]
  cases b with
  | integer _ =>
    cases v with
    | integer n => exact Or.inl ⟨_, rfl, rfl⟩
    | string _ | missing _ | function _ | reference _ => exact Or.inr ⟨_, rfl, rfl⟩
  | string _ =>
    cases v.text? with
    | none => exact Or.inr ⟨_, rfl, rfl⟩
    | some t => exact Or.inl ⟨_, rfl, rfl⟩
  | entryInteger =>
    cases v with
    | integer n => exact hvariables _
    | string _ | missing _ | function _ | reference _ => exact Or.inr ⟨_, rfl, rfl⟩
  | entryString =>
    cases v.text? with
    | none => exact Or.inr ⟨_, rfl, rfl⟩
    | some t => exact hvariables _
  | field | builtin _ | function _ => exact Or.inr ⟨_, rfl, rfl⟩

theorem setVariable {name : Text} (hname : name ∈ Γ.bound) (v : Value) :
    Scoped Γ Anything (Run.setVariable name v) := by
  intro s m hm
  obtain ⟨b, hb⟩ := hm.exists_get? hname
  have hsteps := Run.Steps.setVariable name v s m
  obtain ⟨m', hset, hstack⟩ | ⟨f, hset, hf⟩ := setVariable_of_get? (v := v) (s := s) hb
  · rw [hset] at hsteps ⊢
    exact ⟨hm.of_reaches hsteps (hstack ▸ hm.stack), trivial⟩
  · rw [hset]
    exact ⟨hm, .of_isUndefinedName hf⟩

/-- What is assigned to was taken from the stack, so it is a name that is bound. -/
theorem assign : Scoped Γ Anything Run.assign := by
  refine bind pop fun target htarget => bind pop fun v _ => ?_
  cases target with
  | reference name => exact setVariable htarget v
  | integer _ | string _ | missing _ | function _ => exact fail_other rfl

/-! ### Functions that run no others -/

/-- What most functions are made of keeps machines well-scoped. -/
theorem modest : Run.Modest (fun x => Run.Scoped Γ Anything x) where
  give _ := give trivial
  bind hx hf := bind hx fun a _ => hf a
  fail _ hf := fail_other (Fault.isUndefinedName_of_isOrdinary hf)
  activeName := activeName
  current := current
  preamble _ _ hm := ⟨hm, trivial⟩
  bindings := bindings.imp fun _ _ => trivial
  put _ hv := push (.of_isRunnable hv)
  pop := pop.imp fun _ _ => trivial
  swap := bind pop fun _ htop => bind pop fun _ hbelow => bind (push htop) fun _ _ => push hbelow
  duplicate := bind pop fun _ hv => bind (push hv) fun _ _ => push hv
  assign := assign
  currentEntry := currentEntry
  currentKey := currentKey
  currentVariables := currentVariables
  fieldValue name := (fieldValue name).imp fun _ _ => trivial
  report d _ := report d

/-! ### Other functions -/

/-- A name of which a reference is put on the stack is bound, or it is the one at fault. -/
theorem refer {name : Text} (hname : Γ.said name) :
    Scoped Γ Anything (Run.refer name) := by
  refine bind bindings fun t ht => ?_
  split
  · next hbound =>
    rw [Table.contains_iff_mem_names, ht] at hbound
    exact push hbound
  · next hunbound =>
    rw [Table.contains_iff_mem_names, ht] at hunbound
    exact fail fun _ hf => by
      cases hf
      exact ⟨hname, hunbound⟩

/-- The function for the type of an entry is one that a name is bound to. -/
theorem handlerName : Scoped Γ (· ∈ Γ.bound) Run.handlerName := by
  have hcallable : ∀ (t : Table Binding) (name : Text), t.names = Γ.bound →
      Run.isCallable t name = true → name ∈ Γ.bound := by
    intro t name ht hname
    rw [Run.isCallable] at hname
    cases hb : t.get? name with
    | none =>
      rw [hb] at hname
      cases hname
    | some b => exact ht ▸ Table.mem_names_of_get?_eq_some hb
  refine bind activeName fun function _ => bind (currentEntry function) fun e _ =>
    bind bindings fun t ht => ?_
  split
  · next hkind => exact give (hcallable t _ ht hkind)
  · split
    · next hdefault => exact give (hcallable t _ ht hdefault)
    · exact fail_other rfl

theorem stack : Scoped Γ Anything Run.stack :=
  modest.bind (fun _ _ hm => ⟨hm.of_stack (List.forall_mem_nil _), trivial⟩) fun _ => report _

theorem emit (piece : Text) : Scoped Γ Anything (Run.emit piece) := by
  intro s m hm
  rw [Run.emit]
  split
  · exact ⟨⟨hm.names, hm.stack, hm.bodies⟩, trivial⟩
  · exact ⟨⟨hm.names, hm.stack, hm.bodies⟩, .of_isUndefinedName rfl⟩

theorem newline : Scoped Γ Anything Run.newline :=
  modest.newline (fun _ _ hm => ⟨⟨hm.names, hm.stack, hm.bodies⟩, trivial⟩)
    (fun _ _ hm => ⟨hm, trivial⟩) emit

theorem write : Scoped Γ Anything (Run.popString >>= Run.write) :=
  bind modest.popString fun _ _ _ _ hm => ⟨⟨hm.names, hm.stack, hm.bodies⟩, trivial⟩

end Run.Scoped

/-! ## Tales -/

/-- The machines before and after an event are well-scoped. -/
structure Event.Scoped (Γ : Scope) (e : Event) : Prop where
  before : e.before.Scoped Γ
  after : e.after.Scoped Γ

/-- A tale of which every moment is well-scoped, as is its end. -/
def Tale.Scoped {α : Type} (Γ : Scope) (Q : α → Prop) (t : Tale α) : Prop :=
  ∀ (s : Scene) (m : Machine), m.Scoped Γ →
    (∀ e ∈ t.history s m, e.Scoped Γ) ∧ (t.run s m).Scoped Γ Q

namespace Tale.Scoped

variable {α β : Type} {Q : α → Prop} {R : β → Prop}

theorem once {b? : Option Builtin} {x : Run α} (hx : x.Scoped Γ Q) :
    (Tale.once b? x).Scoped Γ Q := by
  refine Tale.Upholds.once (E := Event.Scoped Γ) (F := Fault.Scoped Γ) (fun s m hm => ?_)
    fun _ he => he.after
  exact Outcome.Upholds.imp (I := Machine.Scoped Γ) (hx s m hm) (fun _ hm' => ⟨hm, hm'⟩)
    (fun _ => id) fun _ => id

theorem andThen {t : Tale α} {f : α → Tale β} (ht : t.Scoped Γ Q)
    (hf : ∀ a, Q a → (f a).Scoped Γ R) : (t.andThen f).Scoped Γ R :=
  Tale.Upholds.andThen (I := Machine.Scoped Γ) (E := Event.Scoped Γ) (F := Fault.Scoped Γ) ht hf

theorem calling (name : Text) {t : Tale Unit} (ht : t.Scoped Γ Anything) :
    (Tale.calling name t).Scoped Γ Anything :=
  Tale.Upholds.calling (I := Machine.Scoped Γ) (E := Event.Scoped Γ) (F := Fault.Scoped Γ) name
    (.of_isUndefinedName rfl) ht

/-- A built-in function that runs no others. -/
theorem other (turns : Nat) {b : Builtin} (hother : b.runsOthers = false) :
    (Tale.once (some b) (runBuiltin (fun _ => Run.give ()) turns b)).Scoped Γ
      Anything := by
  refine once ?_
  cases b with
  | callType | ifThenElse | «while» => cases hother
  | stack => exact Run.Scoped.stack
  | newline => exact Run.Scoped.newline
  | write => exact Run.Scoped.write
  | _ => exact Run.Scoped.modest.builtin _ turns rfl

/-- A name that is looked up is bound, or it is one that functions say and the one at fault. -/
theorem known {m : Machine} (hm : m.Scoped Γ) {name : Text} (hname : Γ.Has name) :
    Tale.Known (Token.Within Γ.words) Γ.words.builtin (Tale.Scoped Γ) name
      (m.bindings.get? name) := by
  cases hb : m.bindings.get? name with
  | none =>
    have hunbound : name ∉ Γ.bound := hm.names ▸ (Table.get?_eq_none_iff _ _).1 hb
    refine once (Run.Scoped.fail fun _ hf => ?_)
    cases hf
    exact ⟨hname.resolve_left hunbound, hunbound⟩
  | some b =>
    cases b with
    | builtin b => trivial
    | function body => exact hm.bodies name body hb
    | integer n => exact fun _ => once (Run.Scoped.push (v := .integer n) trivial)
    | string s => exact fun _ => once (Run.Scoped.push (v := .string s) trivial)
    | field =>
      exact fun _ =>
        once (Run.Scoped.bind (Run.Scoped.fieldValue name) fun _ hv => Run.Scoped.push hv)
    | entryInteger =>
      exact fun _ => once (Run.Scoped.bind (Run.Scoped.currentVariables name) fun _ _ =>
        Run.Scoped.push (v := .integer _) trivial)
    | entryString =>
      exact fun _ => once (Run.Scoped.bind (Run.Scoped.currentVariables name) fun _ _ =>
        Run.Scoped.push (v := .string _) trivial)

/-- Well-scoped tales are made of well-scoped tales. -/
theorem judgement : Tale.Judgement (Token.Within Γ.words) Γ.words.builtin Γ.Has (Value.Scoped Γ)
    (Tale.Scoped Γ) where
  said hname := Or.inr hname
  integer _ := trivial
  string _ := trivial
  function := Iff.rfl
  reference hname := Or.inl hname
  andThen := andThen
  unfinished _ _ _ := ⟨List.forall_mem_nil _, trivial⟩
  running b _ ht s m hm := ht { s with active := some b } m hm
  calling name _ ht := calling name ht
  give := once (Run.Scoped.give trivial)
  push hv := once (Run.Scoped.push hv)
  refer hname := once (Run.Scoped.refer hname)
  mismatch _ := once (Run.Scoped.modest.mismatch _ _)
  popRunnable := once Run.Scoped.popRunnable
  popInteger := once Run.Scoped.modest.popInteger
  handlerName _ := once (Run.Scoped.handlerName.imp fun _ hname => Or.inl hname)
  other turns _ hother := other turns hother
  lookup := once fun _ _ hm => ⟨hm, fun _ => known hm⟩

end Tale.Scoped

end Bibliography.Style
