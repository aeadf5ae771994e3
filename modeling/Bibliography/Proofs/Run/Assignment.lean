import Bibliography.Proofs.Run.History

set_option autoImplicit false

/-! # What is assigned to

A global integer variable changes in one way: `:=` takes a reference to it from the stack, and the
integer that it becomes. The reference got there because a token quotes the name. References cannot
be made in any other way: the functions that run no others put values on the stack that they took
from it, or values that cannot be run (`Run.Carries`).

So a variable is `Guarded` by the names that are quoted: if its name is not among them, it keeps its
value, and if it is, every change is seen in the history of the run (`Event.Guarded`).

Main statement: `Tale.Guarded.judgement`.
-/

namespace Bibliography.Style

/-! ## Quoted names -/

/-- A token that is no block refers only to names of which `q` holds. -/
def Token.Refers (q : Text → Prop) : Token → Prop
  | .quoted n => q n
  | .integer _ | .string _ | .name _ | .block _ => True

/-- A row of tokens, blocks in it opened, refers only to names of which `q` holds. -/
def Token.AllRefer (q : Text → Prop) (ts : List Token) : Prop := ∀ t ∈ leavesAll ts, t.Refers q

/-- A value refers only to names of which `q` holds, now or when it is run. -/
def Value.Refers (q : Text → Prop) : Value → Prop
  | .reference name => q name
  | .function body => Token.AllRefer q body
  | .integer _ | .string _ | .missing _ => True

variable {q q' : Text → Prop}

theorem Token.AllRefer.mono (h : ∀ name, q name → q' name) {ts : List Token}
    (hts : Token.AllRefer q ts) : Token.AllRefer q' ts := by
  intro t ht
  have hrefers := hts t ht
  cases t with
  | quoted name => exact h name hrefers
  | integer _ | string _ | name _ | block _ => trivial

theorem Value.Refers.mono (h : ∀ name, q name → q' name) {v : Value} (hv : v.Refers q) :
    v.Refers q' := by
  cases v with
  | reference name => exact h name hv
  | function body => exact Token.AllRefer.mono h hv
  | integer _ | string _ | missing _ => trivial

theorem Value.Refers.of_isRunnable {v : Value} (h : v.isRunnable = false) : v.Refers q := by
  cases v with
  | integer _ | string _ | missing _ => trivial
  | function _ | reference _ => cases h

/-! ## Runs that assign to nothing -/

/-- A run that changes no binding, and leaves no references on the stack to other names than those
of which `q` holds. The value satisfies `Q`. -/
def Run.Carries {α : Type} (q : Text → Prop) (Q : α → Prop) (x : Run α) : Prop :=
  ∀ (s : Scene) (m : Machine), (∀ v ∈ m.stack, v.Refers q) →
    (x s m).Upholds (fun m' => (∀ v ∈ m'.stack, v.Refers q) ∧ m'.bindings = m.bindings) Anything Q

namespace Run.Carries

variable {α β : Type} {Q : α → Prop} {R : β → Prop}

theorem bind {x : Run α} {f : α → Run β} (hx : Carries q Q x) (hf : ∀ a, Q a → Carries q R (f a)) :
    Carries q R (x >>= f) := by
  intro s m hm
  have h := hx s m hm
  rw [bind_apply]
  cases hxs : x s m with
  | done a m' =>
    rw [hxs] at h
    obtain ⟨⟨hstack, hbindings⟩, ha⟩ := h
    exact hbindings ▸ hf a ha s m' hstack
  | failed f m' =>
    rw [hxs] at h
    exact h
  | unfinished => trivial

theorem imp {Q' : α → Prop} {x : Run α} (hx : Carries q Q x) (h : ∀ a, Q a → Q' a) :
    Carries q Q' x :=
  fun s m hm => (hx s m hm).imp (fun _ => id) (fun _ => id) h

theorem give {a : α} (h : Q a) : Carries q Q (Run.give a) := fun _ _ hm => ⟨⟨hm, rfl⟩, h⟩

theorem fail (f : Fault) : Carries q Q (Run.fail f) := fun _ _ hm => ⟨⟨hm, rfl⟩, trivial⟩

theorem scene : Carries q Anything Run.scene := fun _ _ hm => ⟨⟨hm, rfl⟩, trivial⟩

theorem bindings : Carries q Anything Run.bindings := fun _ _ hm => ⟨⟨hm, rfl⟩, trivial⟩

theorem activeName : Carries q Anything Run.activeName := fun _ _ hm => ⟨⟨hm, rfl⟩, trivial⟩

theorem current : Carries q Anything Run.current := fun _ _ hm => ⟨⟨hm, rfl⟩, trivial⟩

/-- A change to something other than the stack and the bindings. -/
theorem change {f : Machine → Machine} (hstack : ∀ m, (f m).stack = m.stack)
    (hbindings : ∀ m, (f m).bindings = m.bindings) : Carries q Anything (Run.change f) :=
  fun _ m hm => ⟨⟨hstack m ▸ hm, hbindings m⟩, trivial⟩

theorem push {v : Value} (hv : v.Refers q) : Carries q Anything (Run.push v) :=
  fun _ _ hm => ⟨⟨List.forall_mem_cons.2 ⟨hv, hm⟩, rfl⟩, trivial⟩

theorem pop : Carries q (Value.Refers q) Run.pop := by
  intro s m hm
  rw [Run.pop]
  split
  · exact ⟨⟨hm, rfl⟩, trivial⟩
  · next v vs hvs =>
    rw [hvs, List.forall_mem_cons] at hm
    exact ⟨⟨hm.2, rfl⟩, hm.1⟩

theorem currentEntry (function : Text) : Carries q Anything (Run.currentEntry function) := by
  refine bind scene fun s _ => ?_
  split
  · exact give trivial
  · exact fail _

theorem currentKey (function : Text) : Carries q Anything (Run.currentKey function) := by
  refine bind current fun key? _ => ?_
  cases key? with
  | none => exact fail _
  | some key => exact give trivial

theorem currentVariables (name : Text) : Carries q Anything (Run.currentVariables name) :=
  bind (currentKey name) fun _ _ =>
    bind (Q := Anything) (fun _ _ hm => ⟨⟨hm, rfl⟩, trivial⟩) fun _ _ =>
      bind (change (fun _ => rfl) fun _ => rfl) fun _ _ => give trivial

/-- The value of a field is a text or missing. -/
theorem fieldValue (name : Text) : Carries q (Value.Refers q) (Run.fieldValue name) := by
  refine bind (currentEntry name) fun e _ => bind scene fun s _ => ?_
  split
  · exact give trivial
  · cases s.data.field e name <;> exact give trivial

/-- What most functions are made of puts no references on the stack but those that it took. -/
theorem computing : Run.Computing (fun x => Run.Carries q Anything x) where
  give _ := give trivial
  bind hx hf := bind hx fun a _ => hf a
  fail f _ := fail f
  activeName := activeName
  current := current
  preamble _ _ hm := ⟨⟨hm, rfl⟩, trivial⟩
  bindings := bindings
  put _ hv := push (.of_isRunnable hv)
  pop := pop.imp fun _ _ => trivial
  swap := bind pop fun _ htop => bind pop fun _ hbelow => bind (push htop) fun _ _ => push hbelow
  duplicate := bind pop fun _ hv => bind (push hv) fun _ _ => push hv
  currentEntry := currentEntry
  currentKey := currentKey
  currentVariables := currentVariables
  fieldValue name := (fieldValue name).imp fun _ _ => trivial
  report _ _ := change (fun _ => rfl) fun _ => rfl

theorem popRunnable : Carries q (Value.Refers q) Run.popRunnable := by
  refine bind pop fun v hv => ?_
  cases v with
  | function _ | reference _ => exact give hv
  | integer _ | string _ | missing _ => exact bind activeName fun _ _ => fail _

theorem refer {name : Text} (hname : q name) : Carries q Anything (Run.refer name) := by
  refine bind bindings fun t _ => ?_
  split
  · exact push hname
  · exact fail _

theorem emit (piece : Text) : Carries q Anything (Run.emit piece) := by
  intro s m hm
  rw [Run.emit]
  split <;> exact ⟨⟨hm, rfl⟩, trivial⟩

theorem stack : Carries q Anything Run.stack :=
  bind (Q := Anything) (fun _ _ _ => ⟨⟨List.forall_mem_nil _, rfl⟩, trivial⟩) fun _ _ =>
    change (fun _ => rfl) fun _ => rfl

theorem newline : Carries q Anything Run.newline :=
  computing.newline (fun _ _ hm => ⟨⟨hm, rfl⟩, trivial⟩) (fun _ _ hm => ⟨⟨hm, rfl⟩, trivial⟩) emit

/-- **Of the functions that run no others, only `:=` changes what names are bound to.** -/
theorem builtin (turns : Nat) {b : Builtin} (hother : b.runsOthers = false)
    (hassign : b ≠ .assign) :
    Carries q Anything (runBuiltin (fun _ => Run.give ()) turns b) := by
  cases b with
  | callType | ifThenElse | «while» => cases hother
  | stack => exact stack
  | newline => exact newline
  | write => exact bind computing.popString fun _ _ => change (fun _ => rfl) fun _ => rfl
  | _ => exact computing.builtin_of_ne_assign _ turns rfl hassign

end Run.Carries

/-! ## Assigning -/

/-- What a machine becomes when a value is assigned to a name. -/
inductive Machine.Assigned (name : Text) (v : Value) (m : Machine) : Machine → Prop where
  /-- The name is no global variable, or the value is not for it. -/
  | elsewhere (vars : Table EntryVariables)
      (h : ∀ old new, v = .integer new → m.bindings.get? name ≠ some (.integer old)) :
      Assigned name v m { m with entryVariables := vars }
  | integer {old : Int} (new : Int) (hv : v = .integer new)
      (h : m.bindings.get? name = some (.integer old)) :
      Assigned name v m { m with bindings := m.bindings.set name (.integer new) }
  | string {old : Text} (new : Text) (h : m.bindings.get? name = some (.string old)) :
      Assigned name v m { m with bindings := m.bindings.set name (.string new) }

namespace Machine.Assigned

variable {m m' : Machine} {name x : Text} {v : Value} {old : Int}

/-- An integer that is assigned to an integer variable is its value. -/
theorem get?_self {new : Int} (h : m.Assigned x (.integer new) m')
    (hx : m.bindings.get? x = some (.integer old)) :
    m'.bindings.get? x = some (.integer new) := by
  cases h with
  | elsewhere vars h => exact absurd hx (h old new rfl)
  | integer _ hv _ =>
    cases hv
    rw [Table.get?_set, if_pos rfl]
  | string _ h => cases hx.symm.trans h

/-- An integer variable keeps its value when something else is assigned to, or something else than
an integer. -/
theorem get?_of_ne (h : m.Assigned name v m') (hx : m.bindings.get? x = some (.integer old))
    (hne : ∀ new, name = x → v ≠ .integer new) : m'.bindings.get? x = m.bindings.get? x := by
  cases h with
  | elsewhere vars _ => rfl
  | integer new hv _ => rw [Table.get?_set, if_neg fun heq => hne new heq.symm hv]
  | string new h =>
    have hname : x ≠ name := by
      rintro rfl
      cases hx.symm.trans h
    rw [Table.get?_set, if_neg hname]

end Machine.Assigned

namespace Run

theorem assigned_of_changeVariables {name : Text} {v : Value} {m : Machine}
    (h : ∀ old new, v = .integer new → m.bindings.get? name ≠ some (.integer old))
    (f : EntryVariables → EntryVariables) (s : Scene) :
    (changeVariables name f s m).Ends (m.Assigned name v) := by
  cases hc : s.current with
  | none =>
    simp only [changeVariables, currentKey, bind_apply, current_apply, hc, fail_apply]
    exact .elsewhere m.entryVariables h
  | some key =>
    simp only [changeVariables, currentVariables, currentKey, bind_apply, current_apply, hc,
      pure_apply]
    exact .elsewhere _ h

theorem assigned_of_setVariable (name : Text) (v : Value) (s : Scene) (m : Machine) :
    (setVariable name v s m).Ends (m.Assigned name v) := by
  have helsewhere : ∀ b?, m.bindings.get? name = b? → (∀ old, b? ≠ some (.integer old)) →
      ∀ old new, v = .integer new → m.bindings.get? name ≠ some (.integer old) :=
    fun b? hb hne old _ _ heq => hne old (hb.symm.trans heq)
  simp only [setVariable, bind_apply, bindings_apply]
  cases hb : m.bindings.get? name with
  | none => exact .elsewhere m.entryVariables (helsewhere _ hb nofun)
  | some b =>
    cases b with
    | integer old =>
      cases v with
      | integer n => exact .integer n rfl hb
      | string _ | missing _ | function _ | reference _ =>
        exact .elsewhere m.entryVariables nofun
    | string old =>
      cases v.text? with
      | none => exact .elsewhere m.entryVariables (helsewhere _ hb nofun)
      | some t => exact .string t hb
    | entryInteger =>
      cases v with
      | integer n => exact assigned_of_changeVariables (helsewhere _ hb nofun) _ s
      | string _ | missing _ | function _ | reference _ =>
        exact .elsewhere m.entryVariables nofun
    | entryString =>
      cases v.text? with
      | none => exact .elsewhere m.entryVariables (helsewhere _ hb nofun)
      | some t => exact assigned_of_changeVariables (helsewhere _ hb nofun) _ s
    | field | builtin _ | function _ =>
      exact .elsewhere m.entryVariables (helsewhere _ hb nofun)

/-- **What `:=` does.** If a reference and another value lie on the stack, it takes them and assigns
the value to the name. If not, it fails and takes at most two values. -/
theorem assign_ends (s : Scene) (m : Machine) :
    (assign s m).Ends fun m' =>
      (∃ name v rest, m.stack = .reference name :: v :: rest ∧
        Machine.Assigned name v { m with stack := rest } m') ∨
      (∀ name v rest, m.stack ≠ .reference name :: v :: rest) ∧
        ∃ rest, rest ⊆ m.stack ∧ m' = { m with stack := rest } := by
  simp only [assign, bind_apply, pop]
  cases hstack : m.stack with
  | nil =>
    refine Or.inr ⟨?_, [], List.Subset.refl _, ?_⟩
    · rintro _ _ _ ⟨⟩
    · rw [← hstack]
  | cons target rest =>
    cases rest with
    | nil =>
      refine Or.inr ⟨?_, [], List.nil_subset _, rfl⟩
      rintro _ _ _ ⟨⟩
    | cons v rest =>
      cases target with
      | reference name =>
        exact (assigned_of_setVariable name v s { m with stack := rest }).imp fun m' hm' =>
          Or.inl ⟨name, v, rest, rfl, hm'⟩
      | integer _ | string _ | missing _ | function _ =>
        refine Or.inr ⟨?_, rest,
          fun u hu => List.mem_cons_of_mem _ (List.mem_cons_of_mem _ hu), rfl⟩
        rintro _ _ _ ⟨⟩

end Run

/-! ## Guarded variables -/

/-- References on the stack and in functions are only to names of which `q` holds. The integer
variable `x` has the value `n` that it had at first, or is one of these names. -/
structure Machine.Guarded (q : Text → Prop) (x : Text) (n : Int) (m : Machine) : Prop where
  stack : ∀ v ∈ m.stack, v.Refers q
  bodies : ∀ name body, m.bindings.get? name = some (.function body) → Token.AllRefer q body
  value : ∃ k, m.bindings.get? x = some (.integer k) ∧ (k = n ∨ q x)

/-- `:=` takes from the stack a reference to a name and the integer to assign to it. -/
def Event.Assigns (name : Text) (n : Int) (e : Event) : Prop :=
  e.builtin = some .assign ∧ ∃ rest, e.before.stack = .reference name :: .integer n :: rest

/-- The variable `x` is guarded before the event and after it, and changes only to what the event
assigns to it. -/
structure Event.Guarded (q : Text → Prop) (x : Text) (n : Int) (e : Event) : Prop where
  before : e.before.Guarded q x n
  after : e.after.Guarded q x n
  assigned : ∀ k, e.Assigns x k → e.after.bindings.get? x = some (.integer k)
  kept : (∀ k, ¬ e.Assigns x k) → e.after.bindings.get? x = e.before.bindings.get? x

variable {x : Text} {n : Int}

namespace Machine.Guarded

variable {m m' : Machine} (h : m.Guarded q x n)
include h

theorem mono (hq : ∀ name, q name → q' name) : m.Guarded q' x n where
  stack v hv := (h.stack v hv).mono hq
  bodies name body hbody := (h.bodies name body hbody).mono hq
  value := by
    obtain ⟨k, hk, hvalue⟩ := h.value
    exact ⟨k, hk, hvalue.imp_right (hq x)⟩

theorem of_bindings (hstack : ∀ v ∈ m'.stack, v.Refers q) (hbindings : m'.bindings = m.bindings) :
    m'.Guarded q x n :=
  ⟨hstack, hbindings ▸ h.bodies, hbindings ▸ h.value⟩

/-- A name is bound to something other than a function. If it is the variable, then to an integer,
which is the value that it had at first unless the variable is quoted. -/
theorem of_set {name : Text} {b : Binding} (hb : ∀ body, b ≠ .function body)
    (hx : x = name → ∃ k, b = .integer k ∧ (k = n ∨ q x)) :
    ({ m with bindings := m.bindings.set name b } : Machine).Guarded q x n where
  stack := h.stack
  bodies other body hbody := by
    rw [Table.get?_set] at hbody
    split at hbody
    · exact absurd (Option.some.inj hbody) (hb body)
    · exact h.bodies other body hbody
  value := by
    rw [Table.get?_set]
    split
    · next hname =>
      obtain ⟨k, rfl, hk⟩ := hx hname
      exact ⟨k, rfl, hk⟩
    · exact h.value

/-- The name to which something is assigned is quoted. -/
theorem of_assigned {name : Text} {v : Value} (hname : q name) (hassigned : m.Assigned name v m') :
    m'.Guarded q x n := by
  cases hassigned with
  | elsewhere vars _ => exact h.of_bindings h.stack rfl
  | integer new _ _ =>
    exact h.of_set nofun fun hx => ⟨new, rfl, Or.inr (hx ▸ hname)⟩
  | string new hold =>
    refine h.of_set nofun fun hx => ?_
    -- the variable is no string
    obtain ⟨k, hk, -⟩ := h.value
    rw [hx, hold] at hk
    cases hk

end Machine.Guarded

/-- An event that does not touch the bindings. -/
theorem Event.Guarded.of_bindings {b? : Option Builtin} {m m' : Machine} (hb : b? ≠ some .assign)
    (h : m.Guarded q x n) (hstack : ∀ v ∈ m'.stack, v.Refers q)
    (hbindings : m'.bindings = m.bindings) : Event.Guarded q x n ⟨b?, m, m'⟩ where
  before := h
  after := h.of_bindings hstack hbindings
  assigned _ hassigns := absurd hassigns.1 hb
  kept _ := congrArg (Table.get? · x) hbindings

/-- An event that no function does, and that touches neither the stack nor the bindings. -/
theorem Event.Guarded.elsewhere {m m' : Machine} (h : m.Guarded q x n) (hstack : m'.stack = m.stack)
    (hbindings : m'.bindings = m.bindings) : Event.Guarded q x n ⟨none, m, m'⟩ :=
  .of_bindings nofun h (hstack ▸ h.stack) hbindings

/-- The event of `:=`. -/
theorem Event.Guarded.assign {m : Machine} (h : m.Guarded q x n) (s : Scene) :
    (Run.assign s m).Ends fun m' => Event.Guarded q x n ⟨some .assign, m, m'⟩ := by
  refine (Run.assign_ends s m).imp fun m' hends => ?_
  obtain ⟨name, v, rest, hstack, hassigned⟩ | ⟨hstack, rest, hrest, rfl⟩ := hends
  · have hrefers := h.stack
    rw [hstack, List.forall_mem_cons, List.forall_mem_cons] at hrefers
    obtain ⟨hname, -, hrest⟩ := hrefers
    have hpopped : ({ m with stack := rest } : Machine).Guarded q x n := h.of_bindings hrest rfl
    obtain ⟨old, hold, -⟩ := hpopped.value
    refine ⟨h, hpopped.of_assigned hname hassigned, ?_, fun hnone => ?_⟩
    · rintro k ⟨-, rest', hstack'⟩
      cases hstack.symm.trans hstack'
      exact hassigned.get?_self hold
    · refine hassigned.get?_of_ne hold ?_
      rintro new rfl rfl
      exact hnone new ⟨rfl, rest, hstack⟩
  · refine ⟨h, h.of_bindings (fun v hv => h.stack v (hrest hv)) rfl, ?_, fun _ => rfl⟩
    rintro k ⟨-, rest', hstack'⟩
    exact absurd hstack' (hstack _ _ _)

/-! ## Tales -/

def Tale.Guarded {α : Type} (q : Text → Prop) (x : Text) (n : Int) (Q : α → Prop) (t : Tale α) :
    Prop :=
  t.Upholds (Machine.Guarded q x n) (Event.Guarded q x n) Anything Q

namespace Tale.Guarded

variable {α : Type} {Q : α → Prop}

/-- An event other than `:=`. -/
theorem of_carries {b? : Option Builtin} {run : Run α} (hb : b? ≠ some .assign)
    (hrun : run.Carries q Q) : (Tale.once b? run).Guarded q x n Q := by
  refine Tale.Upholds.once (fun s m hm => ?_) fun _ he => he.after
  refine (hrun s m hm.stack).imp ?_ (fun _ => id) fun _ => id
  rintro m' ⟨hstack, hbindings⟩
  exact .of_bindings hb hm hstack hbindings

/-- An event that no function is said to do. -/
theorem once {run : Run α} (hrun : run.Carries q Q) : (Tale.once none run).Guarded q x n Q :=
  of_carries nofun hrun

/-- The event of `:=`. -/
theorem once_assign : (Tale.once (some .assign) Run.assign).Guarded q x n Anything := by
  refine Tale.Upholds.once (fun s m hm => ?_) fun _ he => he.after
  have hevent := Event.Guarded.assign hm s
  cases hout : Run.assign s m with
  | done u m' =>
    rw [hout] at hevent
    exact ⟨hevent, trivial⟩
  | failed f m' =>
    rw [hout] at hevent
    exact ⟨hevent, trivial⟩
  | unfinished => trivial

/-- A built-in function that runs no others. -/
theorem other (turns : Nat) {b : Builtin} (hother : b.runsOthers = false) :
    (Tale.once (some b) (runBuiltin (fun _ => Run.give ()) turns b)).Guarded q x n
      Anything := by
  by_cases hassign : b = .assign
  · subst hassign
    exact once_assign
  · exact of_carries (fun heq => hassign (Option.some.inj heq))
      (Run.Carries.builtin turns hother hassign)

/-- A function to which a name is bound refers only to quoted names. -/
theorem known {m : Machine} (hm : m.Guarded q x n) (name : Text) :
    Tale.Known (Token.Refers q) Anything (Tale.Guarded q x n) name (m.bindings.get? name) := by
  cases hb : m.bindings.get? name with
  | none => exact once (Run.Carries.fail _)
  | some b =>
    cases b with
    | builtin b => trivial
    | function body => exact hm.bodies name body hb
    | integer k => exact fun _ => once (Run.Carries.push (v := .integer k) trivial)
    | string s => exact fun _ => once (Run.Carries.push (v := .string s) trivial)
    | field =>
      exact fun _ =>
        once (Run.Carries.bind (Run.Carries.fieldValue name) fun _ hv => Run.Carries.push hv)
    | entryInteger =>
      exact fun _ => once (Run.Carries.bind (Run.Carries.currentVariables name) fun _ _ =>
        Run.Carries.push (v := .integer _) trivial)
    | entryString =>
      exact fun _ => once (Run.Carries.bind (Run.Carries.currentVariables name) fun _ _ =>
        Run.Carries.push (v := .string _) trivial)

/-- **Guarded tales are made of guarded tales**, whatever names are run. -/
theorem judgement : Tale.Judgement (Token.Refers q) Anything Anything (Value.Refers q)
    (Tale.Guarded q x n) where
  said _ := trivial
  integer _ := trivial
  string _ := trivial
  function := Iff.rfl
  reference _ := trivial
  andThen := Tale.Upholds.andThen
  unfinished := Tale.Upholds.unfinished
  running b _ ht := Tale.Upholds.running b ht
  calling name _ ht := Tale.Upholds.calling name trivial ht
  give := once (Run.Carries.give trivial)
  push hv := once (Run.Carries.push hv)
  refer hname := once (Run.Carries.refer hname)
  mismatch _ := once (Run.Carries.computing.mismatch _ _)
  popRunnable := once Run.Carries.popRunnable
  popInteger := once Run.Carries.computing.popInteger
  handlerName _ := once Run.Carries.computing.handlerName
  other turns _ hother := other turns hother
  lookup s m hm := by
    -- what is looked up is what this machine binds
    have hevent : Event.Guarded q x n ⟨none, m, m⟩ := .elsewhere hm rfl rfl
    exact ⟨List.forall_mem_singleton.2 hevent, hm, fun name _ => known hm name⟩

end Tale.Guarded

end Bibliography.Style
