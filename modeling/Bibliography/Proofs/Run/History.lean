import Bibliography.Proofs.Run.Execution
import Bibliography.Proofs.Run.Frame
import Bibliography.Proofs.Run.Vocabulary

set_option autoImplicit false

/-! # Histories

A run gives an outcome. What happened on the way is its history: the row of its events, each with
the machine before it and after it. A function that runs no others is one event, and so is every
value that is put on the stack or taken from it in between. A `Tale` is a run with its history;
`Tale.ofName` tells the tale of a name, whose run is the run of the name (`run_ofName`) and whose
events follow each other without a gap (`leads_ofName`).

What is said about every moment of a run, or about everything that a run does, is a property of
tales. Like a property of runs, it need only be shown of the pieces that tales are made of
(`Tale.Judgement`), as far as certain tokens and functions are told of, and most often of these only
as far as they stay within a vocabulary (`Tale.Closed`). An invariant of machines that holds before
and after every event is upheld (`Tale.Upholds`).

Main statements: `Tale.Judgement.ofName`, `Tale.Closed.ofName`, `Tale.leads_ofName`.
-/

namespace Bibliography.Style

/-- Something that is done to a machine. It may leave it as it is. -/
structure Event where
  /-- The function that did it, if it was one that runs no others. -/
  builtin : Option Builtin
  before : Machine
  after : Machine

/-- A run with its history. -/
structure Tale (α : Type) where
  run : Run α
  history : Scene → Machine → List Event

namespace Tale

variable {α β : Type}

/-! ## Telling -/

/-- A run that is one event, if it ends. -/
def once (builtin : Option Builtin) (x : Run α) : Tale α where
  run := x
  history s m :=
    match x s m with
    | .done _ m' => [⟨builtin, m, m'⟩]
    | .failed _ m' => [⟨builtin, m, m'⟩]
    | .unfinished => []

def andThen (t : Tale α) (f : α → Tale β) : Tale β where
  run := t.run >>= fun a => (f a).run
  history s m := t.history s m ++
    match t.run s m with
    | .done a m' => (f a).history s m'
    | .failed _ _ => []
    | .unfinished => []

def unfinished : Tale Unit where
  run _ _ := .unfinished
  history _ _ := []

def running (b : Builtin) (t : Tale Unit) : Tale Unit where
  run := Run.running b t.run
  history s m := t.history { s with active := some b } m

/-- The tale of a call, in which nothing happens if it is nested too deeply. -/
def calling (name : Text) (t : Tale Unit) : Tale Unit where
  run := Run.calling name t.run
  history s m := if maxDepth ≤ s.depth then [] else t.history { s with depth := s.depth + 1 } m

instance : Monad Tale where
  pure a := once none (Run.give a)
  bind := andThen

/-- A tale follows a run. -/
instance : Execution Tale where
  once := once
  unfinished := unfinished
  running := running
  calling := calling

def ofName (fuel : Nat) (name : Text) : Tale Unit := executeName fuel name

/-- What is told in pieces is run in pieces. -/
theorem correspondence_run : Correspondence Tale Run fun t x => t.run = x where
  once _ _ := rfl
  bind := by
    rintro α β t _ f g rfl hf
    have hfg : (fun a => (f a).run) = g := funext hf
    exact congrArg (t.run >>= ·) hfg
  unfinished := rfl
  running b _ _ ht := congrArg (Run.running b) ht
  calling name _ _ ht := congrArg (Run.calling name) ht

/-- **The tale of a name is about the run of the name.** -/
theorem run_ofName (fuel : Nat) (name : Text) : (ofName fuel name).run = runName fuel name :=
  correspondence_run.executeName fuel name

end Tale

/-! ## What holds of all tales -/

namespace Tale

variable {L : Token → Prop} {B : Builtin → Prop} {N : Text → Prop} {W : Value → Prop}
variable {J : ∀ {α : Type}, (α → Prop) → Tale α → Prop}

/-- What running a name needs to know of what the name is bound to, if it is. -/
def Known (L : Token → Prop) (B : Builtin → Prop)
    (J : ∀ {α : Type}, (α → Prop) → Tale α → Prop) (name : Text) : Option Binding → Prop
  | none => J Anything (once none (Run.fail (.undefinedName name) : Run Unit))
  | some (.builtin b) => B b
  | some (.function body) => ∀ t ∈ Token.leavesAll body, L t
  | some b => ∀ turns, J Anything (once none (runBinding (fun _ => Run.give ()) turns name b))

/-- A judgement on tales, and on the values that they give, that holds of what tales are made of and
passes from parts to wholes. `L` holds of the tokens of functions and `B` of the built-in functions,
`N` of the names that are run, and `W` of the values that are put on the stack. -/
structure Judgement (L : Token → Prop) (B : Builtin → Prop) (N : Text → Prop) (W : Value → Prop)
    (J : ∀ {α : Type}, (α → Prop) → Tale α → Prop) : Prop where
  said : ∀ {name}, L (.name name) → N name
  integer : ∀ n, W (.integer n)
  string : ∀ {s}, L (.string s) → W (.string s)
  function : ∀ {body}, W (.function body) ↔ ∀ t ∈ Token.leavesAll body, L t
  reference : ∀ {name}, W (.reference name) → N name
  andThen : ∀ {α β : Type} {Q : α → Prop} {R : β → Prop} {t : Tale α} {f : α → Tale β},
    J Q t → (∀ a, Q a → J R (f a)) → J R (t.andThen f)
  unfinished : J Anything unfinished
  running : ∀ (b : Builtin) {t : Tale Unit}, J Anything t → J Anything (running b t)
  calling : ∀ (name : Text) {t : Tale Unit}, J Anything t → J Anything (calling name t)
  give : J Anything (once none (Run.give ()))
  push : ∀ {v}, W v → J Anything (once none (Run.push v))
  refer : ∀ {name}, L (.quoted name) → J Anything (once none (Run.refer name))
  mismatch : ∀ v, J Anything (once none (Run.mismatch .function v : Run Unit))
  popRunnable : J W (once none Run.popRunnable)
  popInteger : J Anything (once none Run.popInteger)
  handlerName : B .callType → J N (once none Run.handlerName)
  other : ∀ {b} (turns : Nat), B b → b.runsOthers = false →
    J Anything (once (some b) (runBuiltin (fun _ => Run.give ()) turns b))
  lookup : J (fun t => ∀ name, N name → Known L B J name (t.get? name)) (once none Run.bindings)

namespace Judgement

variable (h : Judgement L B N W J)
include h

section

variable {call : Text → Tale Unit} (hcall : ∀ name, N name → J Anything (call name))
include hcall

theorem ofTokens {ts : List Token} (hts : ∀ t ∈ Token.leavesAll ts, L t) :
    J Anything (runTokens call ts) := by
  induction ts with
  | nil => exact h.give
  | cons t ts ih =>
    obtain ⟨hfirst, hrest⟩ := List.forall_mem_append.1 hts
    have ih := ih hrest
    cases t with
    | integer n => exact h.andThen (h.push (h.integer n)) fun _ _ => ih
    | string s =>
      exact h.andThen (h.push (h.string (List.forall_mem_singleton.1 hfirst))) fun _ _ => ih
    | block body => exact h.andThen (h.push (h.function.2 hfirst)) fun _ _ => ih
    | name name =>
      exact h.andThen (hcall name (h.said (List.forall_mem_singleton.1 hfirst))) fun _ _ => ih
    | quoted name =>
      exact h.andThen (h.refer (List.forall_mem_singleton.1 hfirst)) fun _ _ => ih

theorem ofValue {v : Value} (hv : W v) : J Anything (runValue call v) := by
  cases v with
  | function ts => exact h.ofTokens hcall (h.function.1 hv)
  | reference name => exact hcall name (h.reference hv)
  | integer _ | string _ | missing _ => exact h.mismatch _

omit hcall in
theorem ofLoop {condition body : Tale Unit} (hc : J Anything condition) (hb : J Anything body)
    (turns : Nat) : J Anything (runLoop condition body turns) := by
  induction turns with
  | zero => exact h.unfinished
  | succ turns ih =>
    refine h.andThen hc fun _ _ => h.andThen h.popInteger fun n _ => ?_
    split
    · exact h.give
    · exact h.andThen hb fun _ _ => ih

theorem ofBuiltin (turns : Nat) {b : Builtin} (hb : B b) :
    J Anything (runBuiltin call turns b) := by
  cases b with
  | ifThenElse =>
    refine h.andThen h.popRunnable fun otherwise hotherwise =>
      h.andThen h.popRunnable fun thenValue hthen => h.andThen h.popInteger fun n _ => ?_
    split
    · exact h.ofValue hcall hthen
    · exact h.ofValue hcall hotherwise
  | «while» =>
    exact h.andThen h.popRunnable fun body hbody =>
      h.andThen h.popRunnable fun condition hcondition =>
        h.ofLoop (h.ofValue hcall hcondition) (h.ofValue hcall hbody) turns
  | callType => exact h.andThen (h.handlerName hb) hcall
  | _ => exact h.other turns hb rfl

theorem ofBinding (turns : Nat) {name : Text} {b : Binding} (hb : Known L B J name (some b)) :
    J Anything (runBinding call turns name b) := by
  cases b with
  | builtin b => exact h.running b (h.ofBuiltin hcall turns hb)
  | function body => exact h.calling name (h.ofTokens hcall hb)
  | integer _ | string _ | field | entryInteger | entryString => exact hb turns

end

/-- **A judgement holds of the tale of every name of which `N` holds.** -/
theorem ofName (fuel : Nat) {name : Text} (hname : N name) :
    J Anything (Tale.ofName fuel name) := by
  induction fuel generalizing name with
  | zero => exact h.unfinished
  | succ fuel ih =>
    refine h.andThen h.lookup fun bindings hbindings => ?_
    have hknown := hbindings name hname
    cases hb : bindings.get? name with
    | none =>
      rw [hb] at hknown
      exact hknown
    | some b =>
      rw [hb] at hknown
      exact h.ofBinding (fun _ => ih) fuel hknown

end Judgement

end Tale

/-! ## What tales uphold -/

/-- `I` holds of the machine at the end, `Q` of the value, and `F` of the fault. -/
def Outcome.Upholds {α : Type} (I : Machine → Prop) (F : Fault → Prop) (Q : α → Prop) :
    Outcome α → Prop
  | .done a m => I m ∧ Q a
  | .failed f m => I m ∧ F f
  | .unfinished => True

theorem Outcome.Upholds.imp {α : Type} {I I' : Machine → Prop} {F F' : Fault → Prop}
    {Q Q' : α → Prop} {o : Outcome α} (h : o.Upholds I F Q) (hI : ∀ m, I m → I' m)
    (hF : ∀ f, F f → F' f) (hQ : ∀ a, Q a → Q' a) : o.Upholds I' F' Q' := by
  cases o with
  | done a m => exact ⟨hI m h.1, hQ a h.2⟩
  | failed f m => exact ⟨hI m h.1, hF f h.2⟩
  | unfinished => trivial

namespace Tale

/-- On a machine of which `I` holds, `E` holds of every event of the tale, and `I` of the machine at
its end. -/
def Upholds {α : Type} (I : Machine → Prop) (E : Event → Prop) (F : Fault → Prop) (Q : α → Prop)
    (t : Tale α) : Prop :=
  ∀ (s : Scene) (m : Machine), I m → (∀ e ∈ t.history s m, E e) ∧ (t.run s m).Upholds I F Q

namespace Upholds

variable {α β : Type} {Q : α → Prop} {R : β → Prop}
variable {I : Machine → Prop} {E : Event → Prop} {F : Fault → Prop}

/-- A run that is one event. -/
theorem once {b? : Option Builtin} {x : Run α}
    (h : ∀ (s : Scene) (m : Machine), I m → (x s m).Upholds (fun m' => E ⟨b?, m, m'⟩) F Q)
    (hE : ∀ e, E e → I e.after) : (once b? x).Upholds I E F Q := by
  intro s m hm
  have hends := h s m hm
  simp only [Tale.once]
  cases hxs : x s m with
  | done a m' =>
    rw [hxs] at hends
    exact ⟨List.forall_mem_singleton.2 hends.1, hE _ hends.1, hends.2⟩
  | failed f m' =>
    rw [hxs] at hends
    exact ⟨List.forall_mem_singleton.2 hends.1, hE _ hends.1, hends.2⟩
  | unfinished => exact ⟨List.forall_mem_nil _, trivial⟩

theorem andThen {t : Tale α} {f : α → Tale β} (ht : t.Upholds I E F Q)
    (hf : ∀ a, Q a → (f a).Upholds I E F R) : (t.andThen f).Upholds I E F R := by
  intro s m hm
  obtain ⟨hevents, hends⟩ := ht s m hm
  simp only [Tale.andThen, Run.bind_apply]
  cases hrun : t.run s m with
  | done a m' =>
    rw [hrun] at hends
    -- the second tale starts on the machine that the first one left
    obtain ⟨hevents', hends'⟩ := hf a hends.2 s m' hends.1
    exact ⟨List.forall_mem_append.2 ⟨hevents, hevents'⟩, hends'⟩
  | failed e m' =>
    rw [hrun] at hends
    exact ⟨by simpa using hevents, hends⟩
  | unfinished => exact ⟨by simpa using hevents, trivial⟩

theorem unfinished : Tale.unfinished.Upholds I E F Anything :=
  fun _ _ _ => ⟨List.forall_mem_nil _, trivial⟩

theorem running (b : Builtin) {t : Tale Unit} (ht : t.Upholds I E F Anything) :
    (Tale.running b t).Upholds I E F Anything :=
  fun s m hm => ht { s with active := some b } m hm

theorem calling (name : Text) (hF : F (.recursionLimit name)) {t : Tale Unit}
    (ht : t.Upholds I E F Anything) : (Tale.calling name t).Upholds I E F Anything := by
  intro s m hm
  simp only [Tale.calling, Run.calling_apply]
  split
  · exact ⟨List.forall_mem_nil _, hm, hF⟩
  · exact ht { s with depth := s.depth + 1 } m hm

end Upholds

end Tale

/-! ## What holds of tales within a vocabulary -/

/-- A run that is made of nothing but what plain functions are made of. -/
def Run.IsPlain {α : Type} (x : Run α) : Prop :=
  ∀ P : ∀ {α : Type}, Run α → Prop, Run.Plain @P → P x

namespace Tale

/-- A property of tales that holds of the events that stay within a vocabulary and passes from
parts to wholes. -/
structure Closed (V : Vocabulary) (P : ∀ {α : Type}, Tale α → Prop) : Prop where
  andThen : ∀ {α β : Type} {Q : α → Prop} {t : Tale α} {f : α → Tale β},
    P t → t.run.Keeps V Q → (∀ a, Q a → P (f a)) → P (t.andThen f)
  unfinished : P unfinished
  running : ∀ (b : Builtin) {t : Tale Unit}, P t → P (running b t)
  calling : ∀ (name : Text) {t : Tale Unit}, P t → P (calling name t)
  plain : ∀ {α : Type} {Q : α → Prop} {b? : Option Builtin} {x : Run α},
    (∀ b, b? = some b → b.isPlain = true) → x.Keeps V Q → x.IsPlain → P (once b? x)
  stack : V.builtin .stack → P (once (some .stack) Run.stack)
  newline : V.builtin .newline → P (once (some .newline) Run.newline)
  write : V.builtin .write → P (once (some .write) (Run.popString >>= Run.write))

variable {V : Vocabulary}

/-- A tale that has the property and keeps to the vocabulary. -/
structure Holds (V : Vocabulary) (P : ∀ {α : Type}, Tale α → Prop) {α : Type} (Q : α → Prop)
    (t : Tale α) : Prop where
  property : P t
  keeps : t.run.Keeps V Q

namespace Closed

variable {P : ∀ {α : Type}, Tale α → Prop}

/-- A plain run that no function is said to do. -/
theorem holds_once (h : Closed V P) {α : Type} {Q : α → Prop} {x : Run α} (hkeeps : x.Keeps V Q)
    (hplain : x.IsPlain) : Holds V P Q (once none x) :=
  ⟨h.plain (fun _ hb => nomatch hb) hkeeps hplain, hkeeps⟩

variable (hV : V.Closed) (h : Closed V P)
include hV h

/-- A built-in function that runs no others. -/
theorem holds_other (turns : Nat) {b : Builtin} (hb : V.builtin b) (hother : b.runsOthers = false) :
    Holds V P Anything
      (once (some b) (runBuiltin (fun _ => Run.give ()) turns b)) := by
  have hkeeps : (runBuiltin (fun _ => Run.give ()) turns b).Keeps V Anything :=
    Run.Keeps.builtin hV _ turns hb hother
  refine ⟨?_, hkeeps⟩
  cases b with
  | callType | ifThenElse | «while» => cases hother
  | stack => exact h.stack hb
  | newline => exact h.newline hb
  | write => exact h.write hb
  | _ =>
    refine h.plain ?_ hkeeps fun _ hP => hP.builtin _ turns rfl
    rintro _ ⟨⟩
    rfl

/-- What a name of the vocabulary is bound to stays within it. -/
theorem known_of_within {name : Text} (hname : V.name name) {b? : Option Binding}
    (hb : ∀ b, b? = some b → b.Within V name) :
    Known (Token.Within V) V.builtin (Holds V P) name b? := by
  cases b? with
  | none =>
    exact h.holds_once (Run.Keeps.fail fun _ _ hf => by cases hf) fun _ hP => hP.undefined name
  | some b =>
    have hb := hb b rfl
    cases b with
    | builtin b => exact hb hname
    | function body => exact hb hname
    | integer n =>
      exact fun _ => h.holds_once (Run.Keeps.pushInteger n) fun _ hP => hP.push _
    | string s =>
      exact fun _ => h.holds_once (Run.Keeps.push (v := .string s) hb) fun _ hP => hP.push _
    | field =>
      exact fun _ => h.holds_once
        (Run.Keeps.bind (Run.Keeps.fieldValue name) fun _ hv => Run.Keeps.push hv)
        fun _ hP => hP.bind (hP.fieldValue name) fun _ => hP.push _
    | entryInteger =>
      exact fun _ => h.holds_once (Run.Keeps.bind (Run.Keeps.currentVariables name) fun _ _ =>
        Run.Keeps.pushInteger _) fun _ hP => hP.bind (hP.currentVariables name) fun _ => hP.push _
    | entryString =>
      refine fun _ => h.holds_once
        (Run.Keeps.bind (Run.Keeps.currentVariables name) fun vars hvars => ?_)
        fun _ hP => hP.bind (hP.currentVariables name) fun _ => hP.push _
      -- a variable that was never assigned is empty
      cases hs : vars.strings.get? name with
      | none => exact Run.Keeps.push (v := .string []) hV.nil
      | some s => exact Run.Keeps.push (v := .string s) (hvars name s hs)

/-- To have the property and keep to the vocabulary is a judgement. -/
theorem judgement :
    Judgement (Token.Within V) V.builtin V.name (Value.Within V) (Holds V P) where
  said hname := hname
  integer _ := trivial
  string hs := hs
  function := Iff.rfl
  reference hname := hname
  andThen ht hf := ⟨h.andThen ht.property ht.keeps fun a ha => (hf a ha).property,
    Run.Keeps.bind ht.keeps fun a ha => (hf a ha).keeps⟩
  unfinished := ⟨h.unfinished, Run.Keeps.unfinished⟩
  running b _ ht := ⟨h.running b ht.property, Run.Keeps.running b ht.keeps⟩
  calling name _ ht := ⟨h.calling name ht.property, Run.Keeps.calling name ht.keeps⟩
  give := h.holds_once (Run.Keeps.give trivial) fun _ hP => hP.give ()
  push hv := h.holds_once (Run.Keeps.push hv) fun _ hP => hP.push _
  refer hname := h.holds_once (Run.Keeps.refer hname) fun _ hP => hP.refer _
  mismatch _ := h.holds_once (Run.Keeps.mismatch _ _) fun _ hP => hP.mismatch _ _
  popRunnable := h.holds_once Run.Keeps.popRunnable fun _ hP => hP.popRunnable
  popInteger := h.holds_once Run.Keeps.popInteger fun _ hP => hP.popInteger
  handlerName hb := h.holds_once (Run.Keeps.handlerName hV hb) fun _ hP => hP.handlerName
  other turns := h.holds_other hV turns
  lookup := by
    refine h.holds_once (fun s m _ hm => ⟨hm, fun name hname => ?_⟩) fun _ hP => hP.bindings
    exact h.known_of_within hV hname (hm.bindings name)

/-- **What is closed holds of the tale of every name of the vocabulary.** -/
theorem ofName (fuel : Nat) {name : Text} (hname : V.name name) :
    Holds V P Anything (Tale.ofName fuel name) :=
  (h.judgement hV).ofName fuel hname

end Closed

/-- **Running a name of the vocabulary does not leave it.** -/
theorem keeps_runName (hV : V.Closed) (fuel : Nat) {name : Text} (hname : V.name name) :
    (runName fuel name).Keeps V Anything := by
  have hclosed : Closed V fun _ => True := by constructor <;> intros <;> trivial
  rw [← run_ofName]
  exact (hclosed.ofName hV fuel hname).keeps

/-! ## Histories have no gaps -/

/-- The events follow each other from one machine to another, each on the machine that the one
before it left. -/
def Linked : Machine → List Event → Machine → Prop
  | m, [], m' => m = m'
  | m, e :: es, m' => e.before = m ∧ Linked e.after es m'

theorem Linked.append {m m' m'' : Machine} {es fs : List Event} (h : Linked m es m')
    (h' : Linked m' fs m'') : Linked m (es ++ fs) m'' := by
  induction es generalizing m with
  | nil => exact h ▸ h'
  | cons e es ih => exact ⟨h.1, ih h.2⟩

/-- What every event of a row keeps holds at every moment if it held at first. -/
theorem Linked.moments {I : Machine → Prop} {m m' : Machine} {es : List Event}
    (h : Linked m es m') (hes : ∀ e ∈ es, I e.before → I e.after) (hm : I m) :
    (∀ e ∈ es, I e.before ∧ I e.after) ∧ I m' := by
  induction es generalizing m with
  | nil => exact ⟨List.forall_mem_nil _, h ▸ hm⟩
  | cons e es ih =>
    obtain ⟨rfl, hrest⟩ := h
    obtain ⟨hfirst, hes⟩ := List.forall_mem_cons.1 hes
    obtain ⟨hmoments, hend⟩ := ih hrest hes (hfirst hm)
    exact ⟨List.forall_mem_cons.2 ⟨⟨hm, hfirst hm⟩, hmoments⟩, hend⟩

/-- The history leads to the machine at the end, if the run has an end. -/
def Leads {α : Type} (t : Tale α) : Prop :=
  ∀ s m, ∃ m', Linked m (t.history s m) m' ∧ (t.run s m).Ends (· = m')

theorem leads_once {α : Type} (b? : Option Builtin) (x : Run α) : (once b? x).Leads := by
  intro s m
  simp only [once]
  cases hx : x s m with
  | done a m' => exact ⟨m', ⟨rfl, rfl⟩, rfl⟩
  | failed f m' => exact ⟨m', ⟨rfl, rfl⟩, rfl⟩
  | unfinished => exact ⟨m, rfl, trivial⟩

theorem Leads.andThen {α β : Type} {Q : α → Prop} {t : Tale α} {f : α → Tale β} (ht : t.Leads)
    (hkeeps : t.run.Keeps .all Q) (hf : ∀ a, Q a → (f a).Leads) : (t.andThen f).Leads := by
  intro s m
  obtain ⟨m', hlinked, hends⟩ := ht s m
  have hfits := hkeeps s m s.within_all m.within_all
  simp only [Tale.andThen, Run.bind_apply]
  cases ht : t.run s m with
  | done a m₁ =>
    rw [ht] at hends hfits
    obtain rfl : m₁ = m' := hends
    -- the second history starts on the machine to which the first one led
    obtain ⟨m'', hlinked', hends'⟩ := hf a hfits.2 s m₁
    exact ⟨m'', hlinked.append hlinked', hends'⟩
  | failed e m₁ =>
    rw [ht] at hends
    exact ⟨m', by simpa using hlinked, hends⟩
  | unfinished => exact ⟨m', by simpa using hlinked, trivial⟩

theorem Leads.calling {t : Tale Unit} (ht : t.Leads) (name : Text) : (calling name t).Leads := by
  intro s m
  simp only [Tale.calling, Run.calling_apply]
  split
  · exact ⟨m, rfl, rfl⟩
  · exact ht { s with depth := s.depth + 1 } m

theorem closed_leads : Closed .all @Leads where
  andThen := Leads.andThen
  unfinished _ m := ⟨m, rfl, trivial⟩
  running b _ ht s m := ht { s with active := some b } m
  calling name _ ht := ht.calling name
  plain _ _ _ := leads_once _ _
  stack _ := leads_once _ _
  newline _ := leads_once _ _
  write _ := leads_once _ _

/-- **The history of a name leads from the machine at its start to that at its end.** -/
theorem leads_ofName (fuel : Nat) (name : Text) : (ofName fuel name).Leads :=
  (closed_leads.ofName Vocabulary.closed_all fuel trivial).property

end Tale

end Bibliography.Style
