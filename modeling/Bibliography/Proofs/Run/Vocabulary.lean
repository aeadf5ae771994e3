import Bibliography.Proofs.Run.Steps
import Bibliography.Tex.Measure

set_option autoImplicit false

/-! # What a style can say

A style speaks of texts, names and built-in functions. A `Vocabulary` singles out some of each: the
texts that may stand on the stack, in variables and in the output, the names that may be run, and
the built-in functions that may be run through them. If the tokens that are run, the machine and
the scene stay within it, and the functions of the vocabulary make texts of it from texts of it
(`Vocabulary.Closed`), then a run cannot leave it. This file says so for every function that runs no
others (`Run.Keeps.builtin`); where others are run, only names of the vocabulary matter.
-/

namespace Bibliography.Style

def Builtin.runsOthers : Builtin → Bool
  | .callType | .ifThenElse | .while => true
  | _ => false

/-! ## Leaves -/

namespace Token

mutual

/-- The tokens that are no blocks of which a token is made. -/
def leaves : Token → List Token
  | .block body => leavesAll body
  | t => [t]

/-- The tokens that are no blocks in a row of tokens, blocks inside it opened. -/
def leavesAll : List Token → List Token
  | [] => []
  | t :: ts => leaves t ++ leavesAll ts

end

end Token

/-! ## Vocabularies -/

/-- The texts, names and built-in functions of which a style may make use. -/
structure Vocabulary where
  text : Text → Prop
  /-- The names that may be run. -/
  name : Text → Prop
  builtin : Builtin → Prop

def Vocabulary.all : Vocabulary where
  text _ := True
  name _ := True
  builtin _ := True

variable {V : Vocabulary}

namespace Token

/-- A token that is no block says nothing outside the vocabulary. -/
def Within (V : Vocabulary) : Token → Prop
  | .string s => V.text s
  | .name n | .quoted n => V.name n
  | .integer _ | .block _ => True

/-- A row of tokens says nothing outside the vocabulary. -/
def AllWithin (V : Vocabulary) (ts : List Token) : Prop := ∀ t ∈ leavesAll ts, t.Within V

instance [DecidablePred V.text] [DecidablePred V.name] : DecidablePred (Within V)
  | .string s => inferInstanceAs (Decidable (V.text s))
  | .name n | .quoted n => inferInstanceAs (Decidable (V.name n))
  | .integer _ | .block _ => .isTrue trivial

instance [DecidablePred V.text] [DecidablePred V.name] (ts : List Token) :
    Decidable (AllWithin V ts) :=
  inferInstanceAs (Decidable (∀ t ∈ leavesAll ts, t.Within V))

theorem allWithin_all (ts : List Token) : AllWithin .all ts := by
  intro t _
  cases t <;> trivial

end Token

def Value.Within (V : Vocabulary) : Value → Prop
  | .string s => V.text s
  | .function body => Token.AllWithin V body
  | .reference name => V.name name
  | .integer _ | .missing _ => True

theorem Value.within_all (v : Value) : v.Within .all := by
  cases v with
  | function body => exact Token.allWithin_all body
  | integer _ | string _ | missing _ | reference _ => trivial

/-- What a name is bound to says nothing outside the vocabulary, if the name may be run. -/
def Binding.Within (V : Vocabulary) (name : Text) : Binding → Prop
  | .builtin b => V.name name → V.builtin b
  | .function body => V.name name → Token.AllWithin V body
  | .string s => V.text s
  | .integer _ | .field | .entryInteger | .entryString => True

theorem Binding.within_all (name : Text) (b : Binding) : b.Within .all name := by
  cases b with
  | function body => exact fun _ => Token.allWithin_all body
  | builtin _ => exact fun _ => trivial
  | integer _ | string _ | field | entryInteger | entryString => trivial

/-- A fault says nothing outside the vocabulary: if it complains of an unmatched brace, then of one
in a text of the vocabulary. -/
def Fault.Within (V : Vocabulary) (f : Fault) : Prop :=
  ∀ b s, f.root = .text b (.unmatchedBraces s) → V.text s ∧ Tex.isBalanced s = false

/-- Everything on a machine that can be run or shown is within the vocabulary. -/
structure Machine.Within (V : Vocabulary) (m : Machine) : Prop where
  bindings : ∀ name b, m.bindings.get? name = some b → b.Within V name
  stack : ∀ v ∈ m.stack, v.Within V
  entryStrings : ∀ key vars, m.entryVariables.get? key = some vars →
    ∀ name s, vars.strings.get? name = some s → V.text s
  pending : ∀ s ∈ m.pending, V.text s

/-- What a run can learn from its scene is within the vocabulary. The type of the current entry is
also a name, and one that is run if types may be. -/
structure Scene.Within (V : Vocabulary) (s : Scene) : Prop where
  key : ∀ key, s.current = some key → V.text key
  kind : ∀ e, s.current.bind s.data.entry? = some e → V.text e.kind
  handler : ∀ e, s.current.bind s.data.entry? = some e → V.builtin .callType → V.name e.kind
  field : ∀ e name value, s.current.bind s.data.entry? = some e →
    s.data.field e name = .present value → V.text value
  preamble : V.text s.data.preamble.flatten

/-- The functions of the vocabulary make texts of the vocabulary from texts of the vocabulary, and
the function for all other types may be run if types may be. -/
structure Vocabulary.Closed (V : Vocabulary) : Prop where
  defaultType : V.builtin .callType → V.name "default.type".toList
  nil : V.text []
  append : ∀ {s t}, V.text s → V.text t → V.text (s ++ t)
  addPeriod : ∀ {s}, V.text s → V.text (Tex.addPeriod s)
  changeCase : ∀ {s} mode, V.text s → V.text (Tex.changeCase s mode)
  formatName : ∀ {names pattern index name printed}, V.text names → V.text pattern →
    Run.nameAt? (Tex.splitNameList names) index = some name →
    Style.formatName name pattern = .ok printed → V.text printed
  character : V.builtin .intToChr → ∀ c, V.text [c]
  digits : ∀ n : Int, V.text (toString n).toList
  purify : ∀ {s}, V.text s → V.text (Tex.purify s)
  quote : V.text ['"']
  substring : V.builtin .substring → ∀ {s start len part}, V.text s →
    Tex.substring s start len = .ok part → V.text part
  textPrefix : ∀ {s} n, V.text s → V.text (Tex.textPrefix s n)

theorem Scene.within_all (s : Scene) : s.Within .all := by
  constructor <;> intros <;> trivial

theorem Vocabulary.closed_all : Vocabulary.all.Closed := by
  constructor <;> intros <;> trivial

theorem Vocabulary.Closed.flatten (hV : V.Closed) {parts : List Text} (h : ∀ s ∈ parts, V.text s) :
    V.text parts.flatten := by
  induction parts with
  | nil => exact hV.nil
  | cons s parts ih =>
    exact hV.append (h s (by simp)) (ih fun t ht => h t (List.mem_cons_of_mem _ ht))

/-- The text of a value, that of a missing field included. -/
theorem Vocabulary.Closed.text_of_value (hV : V.Closed) {v : Value} (hv : v.Within V) {s : Text}
    (h : v.text? = some s) : V.text s := by
  cases v with
  | string t =>
    cases h
    exact hv
  | missing _ =>
    cases h
    exact hV.nil
  | integer _ | function _ | reference _ => cases h

/-! ## Machines -/

namespace Machine.Within

variable {m : Machine} (h : m.Within V)
include h

theorem of_stack {vs : List Value} (hvs : ∀ v ∈ vs, v.Within V) :
    ({ m with stack := vs } : Machine).Within V :=
  ⟨h.bindings, hvs, h.entryStrings, h.pending⟩

/-- A variable may get a value of the vocabulary. -/
theorem of_set {name : Text} {b : Binding} (hb : b.Within V name) :
    ({ m with bindings := m.bindings.set name b } : Machine).Within V := by
  refine ⟨fun other b' hother => ?_, h.stack, h.entryStrings, h.pending⟩
  rw [Table.get?_set] at hother
  split at hother
  · next heq =>
    cases hother
    exact heq ▸ hb
  · exact h.bindings other b' hother

theorem of_entryVariables {key : Text} {vars : EntryVariables}
    (hvars : ∀ name s, vars.strings.get? name = some s → V.text s) :
    ({ m with entryVariables := m.entryVariables.set key vars } : Machine).Within V := by
  refine ⟨h.bindings, h.stack, fun other vars' hother => ?_, h.pending⟩
  rw [Table.get?_set] at hother
  split at hother
  · cases hother
    exact hvars
  · exact h.entryStrings other vars' hother

end Machine.Within

theorem Machine.within_all (m : Machine) : m.Within .all where
  bindings name b _ := b.within_all name
  stack v _ := v.within_all
  entryStrings _ _ _ _ _ _ := trivial
  pending _ _ := trivial

/-! ## Runs -/

/-- The outcome is within the vocabulary, and its value satisfies `Q`. -/
def Outcome.Fits {α : Type} (V : Vocabulary) (Q : α → Prop) : Outcome α → Prop
  | .done a m => m.Within V ∧ Q a
  | .failed f m => m.Within V ∧ f.Within V
  | .unfinished => True

/-- A run that does not leave the vocabulary and gives values that satisfy `Q`. -/
def Run.Keeps {α : Type} (V : Vocabulary) (Q : α → Prop) (x : Run α) : Prop :=
  ∀ s m, s.Within V → m.Within V → (x s m).Fits V Q

/-- Nothing is said about the value. -/
abbrev Anything {α : Type} : α → Prop := fun _ => True

namespace Run.Keeps

variable {α β : Type} {Q : α → Prop} {R : β → Prop}

/-! ### Primitive runs -/

theorem give {a : α} (h : Q a) : Keeps V Q (Run.give a) := fun _ _ _ hm => ⟨hm, h⟩

theorem bind {x : Run α} {f : α → Run β} (hx : Keeps V Q x) (hf : ∀ a, Q a → Keeps V R (f a)) :
    Keeps V R (x >>= f) := by
  intro s m hs hm
  have h := hx s m hs hm
  rw [bind_apply]
  cases hxs : x s m with
  | done a m' =>
    rw [hxs] at h
    exact hf a h.2 s m' hs h.1
  | failed f m' =>
    rw [hxs] at h
    exact h
  | unfinished => trivial

/-- A run that fails with a fault that is about no unmatched brace. -/
theorem fail {f : Fault} (h : ∀ b s, f.root ≠ .text b (.unmatchedBraces s)) :
    Keeps V Q (Run.fail f) :=
  fun _ _ _ hm => ⟨hm, fun b s hf => absurd hf (h b s)⟩

theorem activeName : Keeps V Anything Run.activeName := fun _ _ _ hm => ⟨hm, trivial⟩

theorem bindings :
    Keeps V (fun t => ∀ name b, t.get? name = some b → b.Within V name) Run.bindings :=
  fun _ _ _ hm => ⟨hm, hm.bindings⟩

theorem push {v : Value} (hv : v.Within V) : Keeps V Anything (Run.push v) :=
  fun _ _ _ hm => ⟨hm.of_stack (List.forall_mem_cons.2 ⟨hv, hm.stack⟩), trivial⟩

theorem pop : Keeps V (Value.Within V) Run.pop := by
  intro s m _ hm
  have hstack := hm.stack
  rw [Run.pop]
  split
  · exact ⟨hm, fun b s hf => by cases hf⟩
  · next v vs hvs =>
    rw [hvs, List.forall_mem_cons] at hstack
    exact ⟨hm.of_stack hstack.2, hstack.1⟩

theorem report (d : Diagnostic) : Keeps V Anything (Run.report d) :=
  fun _ _ _ hm => ⟨⟨hm.bindings, hm.stack, hm.entryStrings, hm.pending⟩, trivial⟩

theorem write {t : Text} (ht : V.text t) : Keeps V Anything (Run.write t) :=
  fun _ _ _ hm => ⟨⟨hm.bindings, hm.stack, hm.entryStrings,
    List.forall_mem_cons.2 ⟨ht, hm.pending⟩⟩, trivial⟩

theorem takeLine (hV : V.Closed) : Keeps V V.text Run.takeLine := by
  intro s m _ hm
  have hline : V.text m.output :=
    hV.flatten fun t ht => hm.pending t (List.mem_reverse.1 ht)
  exact ⟨⟨hm.bindings, hm.stack, hm.entryStrings, List.forall_mem_nil _⟩, hline⟩

theorem emit (piece : Text) : Keeps V Anything (Run.emit piece) := by
  intro s m _ hm
  rw [Run.emit]
  split
  · exact ⟨⟨hm.bindings, hm.stack, hm.entryStrings, hm.pending⟩, trivial⟩
  · exact ⟨⟨hm.bindings, hm.stack, hm.entryStrings, hm.pending⟩, fun b t hf => by cases hf⟩

theorem unfinished : Keeps V Q (fun _ _ => .unfinished : Run α) := fun _ _ _ _ => trivial

/-- Which function runs has no part in the vocabulary. -/
theorem running (b : Builtin) {x : Run α} (hx : Keeps V Q x) : Keeps V Q (Run.running b x) :=
  fun _ m hs hm => hx _ m ⟨hs.key, hs.kind, hs.handler, hs.field, hs.preamble⟩ hm

theorem calling (name : Text) {x : Run Unit} (hx : Keeps V Anything x) :
    Keeps V Anything (Run.calling name x) := by
  intro s m hs hm
  rw [calling_apply]
  split
  · exact ⟨hm, fun _ _ hf => by cases hf⟩
  · exact hx _ m ⟨hs.key, hs.kind, hs.handler, hs.field, hs.preamble⟩ hm

/-! ### Arguments -/

theorem mismatch (wanted : Wanted) (found : Value) :
    Keeps V Q (Run.mismatch wanted found : Run α) :=
  bind activeName fun _ _ => fail fun _ _ h => by cases h

theorem invalidArgument (f : ArgumentFault) : Keeps V Q (Run.invalidArgument f : Run α) :=
  bind activeName fun _ _ => fail fun _ _ h => by cases h

theorem popInteger : Keeps V Anything Run.popInteger := by
  refine bind pop fun v _ => ?_
  cases v with
  | integer n => exact give trivial
  | string _ | missing _ | function _ | reference _ => exact mismatch _ _

theorem popString (hV : V.Closed) : Keeps V V.text Run.popString := by
  refine bind pop fun v hv => ?_
  cases v with
  | string s => exact give hv
  | missing _ => exact give hV.nil
  | integer _ | function _ | reference _ => exact mismatch _ _

theorem popRunnable : Keeps V (Value.Within V) Run.popRunnable := by
  refine bind pop fun v hv => ?_
  cases v with
  | function body => exact give hv
  | reference name => exact give hv
  | integer _ | string _ | missing _ => exact mismatch _ _

theorem pushInteger (n : Int) : Keeps V Anything (Run.push (.integer n)) := push trivial

theorem pushChecked (n : Int) : Keeps V Anything (Run.pushChecked n) := by
  rw [Run.pushChecked]
  split
  · exact pushInteger n
  · exact invalidArgument _

/-- A result goes on, and an error that is about no unmatched brace ends the run. -/
theorem ofExcept {ε : Type} {r : Except ε α} {f : ε → Fault}
    (h : ∀ e, r = .error e → ∀ b s, (f e).root ≠ .text b (.unmatchedBraces s)) :
    Keeps V (fun a => r = .ok a) (Run.ofExcept (r.mapError f)) := by
  cases r with
  | ok a => exact give rfl
  | error e => exact fail (h e rfl)

/-! ### The current entry -/

theorem currentEntry (function : Text) :
    Keeps V (fun e => V.text e.kind ∧ (V.builtin .callType → V.name e.kind))
      (Run.currentEntry function) := by
  intro s m hs hm
  simp only [Run.currentEntry, bind_apply, scene_apply]
  cases he : s.current.bind s.data.entry? with
  | none => exact ⟨hm, fun b s hf => by cases hf⟩
  | some e => exact ⟨hm, hs.kind e he, hs.handler e he⟩

theorem currentKey (function : Text) : Keeps V V.text (Run.currentKey function) := by
  intro s m hs hm
  simp only [Run.currentKey, bind_apply, current_apply]
  cases hc : s.current with
  | none => exact ⟨hm, fun b s hf => by cases hf⟩
  | some key => exact ⟨hm, hs.key key hc⟩

/-- The strings that were assigned are of the vocabulary. -/
abbrev StringsWithin (V : Vocabulary) (vars : EntryVariables) : Prop :=
  ∀ name s, vars.strings.get? name = some s → V.text s

theorem variablesOf (key : Text) : Keeps V (StringsWithin V) (Run.variablesOf key) := by
  intro s m _ hm
  refine ⟨hm, ?_⟩
  -- an entry without variables counts as one with none set
  cases hvars : m.entryVariables.get? key.fold with
  | none =>
    intro name s h
    cases h
  | some vars => exact hm.entryStrings key.fold vars hvars

theorem setVariables (key : Text) {vars : EntryVariables} (hvars : StringsWithin V vars) :
    Keeps V Anything (Run.setVariables key vars) :=
  fun _ _ _ hm => ⟨hm.of_entryVariables hvars, trivial⟩

theorem currentVariables (name : Text) : Keeps V (StringsWithin V) (Run.currentVariables name) :=
  bind (currentKey name) fun key _ => bind (variablesOf key) fun _ hvars =>
    bind (setVariables key hvars) fun _ _ => give hvars

theorem changeVariables (name : Text) {f : EntryVariables → EntryVariables}
    (hf : ∀ vars, StringsWithin V vars → StringsWithin V (f vars)) :
    Keeps V Anything (Run.changeVariables name f) :=
  bind (currentKey name) fun key _ => bind (currentVariables name) fun vars hvars =>
    setVariables key (hf vars hvars)

theorem fieldValue (name : Text) : Keeps V (Value.Within V) (Run.fieldValue name) := by
  intro s m hs hm
  simp only [Run.fieldValue, Run.currentEntry, bind_apply, scene_apply]
  cases he : s.current.bind s.data.entry? with
  | none => exact ⟨hm, fun b s hf => by cases hf⟩
  | some e =>
    simp only [pure_apply]
    split
    · exact ⟨hm, trivial⟩
    · refine ⟨hm, ?_⟩
      cases hv : s.data.field e name with
      | present value => exact hs.field e name value he hv
      | missing _ => trivial

/-! ### Variables -/

theorem setVariable (hV : V.Closed) (name : Text) {v : Value} (hv : v.Within V) :
    Keeps V Anything (Run.setVariable name v) := by
  refine bind bindings fun t _ => ?_
  cases t.get? name with
  | none => exact fail fun _ _ h => by cases h
  | some b =>
    cases b with
    | integer _ =>
      cases v with
      | integer n => exact fun _ _ _ hm => ⟨hm.of_set trivial, trivial⟩
      | string _ | missing _ | function _ | reference _ => exact fail fun _ _ h => by cases h
    | string _ =>
      -- a string variable takes all that counts as a text, a missing field too
      cases ht : v.text? with
      | none => exact fail fun _ _ h => by cases h
      | some s => exact fun _ _ _ hm => ⟨hm.of_set (hV.text_of_value hv ht), trivial⟩
    | entryInteger =>
      cases v with
      | integer n => exact changeVariables name fun vars hvars => hvars
      | string _ | missing _ | function _ | reference _ => exact fail fun _ _ h => by cases h
    | entryString =>
      cases ht : v.text? with
      | none => exact fail fun _ _ h => by cases h
      | some s =>
        refine changeVariables name fun vars hvars other s' hother => ?_
        rw [Table.get?_set] at hother
        split at hother
        · cases hother
          exact hV.text_of_value hv ht
        · exact hvars other s' hother
    | field | builtin _ | function _ => exact fail fun _ _ h => by cases h

theorem refer {name : Text} (hname : V.name name) : Keeps V Anything (Run.refer name) := by
  refine bind bindings fun _ _ => ?_
  split
  · exact push hname
  · exact fail fun _ _ h => by cases h

theorem assign (hV : V.Closed) : Keeps V Anything Run.assign := by
  refine bind pop fun target _ => bind pop fun v hv => ?_
  cases target with
  | reference name => exact setVariable hV name hv
  | integer _ | string _ | missing _ | function _ => exact fail fun _ _ h => by cases h

/-! ### Built-in functions -/

theorem compare (p : Int → Int → Bool) : Keeps V Anything (Run.compare p) :=
  bind popInteger fun _ _ => bind popInteger fun _ _ => pushInteger _

theorem combine (f : Int → Int → Int) : Keeps V Anything (Run.combine f) :=
  bind popInteger fun _ _ => bind popInteger fun _ _ => pushChecked _

theorem equal : Keeps V Anything Run.equal := by
  refine bind pop fun right _ => bind pop fun left _ => ?_
  split
  · exact pushInteger _
  · split
    · exact pushInteger _
    · exact mismatch _ _
    · exact mismatch _ _

theorem times (hV : V.Closed) : Keeps V Anything Run.times := by
  refine bind pop fun right hright => bind pop fun left hleft => ?_
  split
  · exact pushChecked _
  · split
    · next a b ha hb =>
      exact push (hV.append (hV.text_of_value hleft ha) (hV.text_of_value hright hb))
    · exact mismatch _ _
    · exact mismatch _ _

/-- A function that makes a value of the vocabulary from a text of the vocabulary. -/
theorem transform (hV : V.Closed) {f : Text → Value} (hf : ∀ s, V.text s → (f s).Within V) :
    Keeps V Anything (Run.transform f) :=
  bind (popString hV) fun s hs => push (hf s hs)

theorem changeCase (hV : V.Closed) : Keeps V Anything Run.changeCase := by
  refine bind (popString hV) fun mode _ => bind (popString hV) fun s hs =>
    bind (ofExcept fun e he b t hf => ?_) fun mode _ => push (hV.changeCase mode hs)
  -- a mode is refused for its first letter
  rw [Tex.CaseMode.ofText?] at he
  split at he <;> cases he
  cases hf

theorem chrToInt (hV : V.Closed) : Keeps V Anything Run.chrToInt := by
  refine bind (popString hV) fun s _ => ?_
  split
  · exact pushInteger _
  · exact invalidArgument _

theorem intToChr (hV : V.Closed) (hb : V.builtin .intToChr) : Keeps V Anything Run.intToChr := by
  refine bind popInteger fun n _ => ?_
  split
  · exact push (hV.character hb _)
  · exact invalidArgument _

theorem substring (hV : V.Closed) (hb : V.builtin .substring) :
    Keeps V Anything Run.substring := by
  refine bind popInteger fun len _ => bind popInteger fun start _ => bind (popString hV)
    fun s hs => bind (ofExcept fun e he b t hf => ?_) fun part hpart =>
      push (hV.substring hb hs hpart)
  rw [Tex.substring] at he
  split at he
  · cases he
    cases hf
  · split at he <;> cases he

theorem textPrefix (hV : V.Closed) : Keeps V Anything Run.textPrefix :=
  bind popInteger fun n _ => bind (popString hV) fun _ hs => push (hV.textPrefix n hs)

theorem empty : Keeps V Anything Run.empty := by
  refine bind pop fun v _ => ?_
  cases v with
  | integer _ | string _ | missing _ => exact pushInteger _
  | function _ | reference _ => exact mismatch _ _

theorem missing : Keeps V Anything Run.missing := by
  refine bind pop fun v _ => ?_
  cases v with
  | integer _ | string _ | missing _ | function _ | reference _ => exact pushInteger _

/-- A name is refused for its commas, and a pattern for what is wrong with it. -/
theorem printedName (name pattern : Text) :
    Keeps V (fun printed => Style.formatName name pattern = .ok printed)
      (Run.ofExcept (Style.formatName name pattern)) := by
  cases hprinted : Style.formatName name pattern with
  | ok printed => exact give rfl
  | error f =>
    refine fail fun b s hf => ?_
    -- both readers wrap their faults in kinds of their own
    rw [Style.formatName] at hprinted
    cases hp : Person.read name with
    | error e =>
      rw [hp] at hprinted
      cases hprinted
      cases hf
    | ok p =>
      rw [hp] at hprinted
      cases hformat : NameFormat.ofPattern pattern with
      | error e =>
        rw [hformat] at hprinted
        cases hprinted
        cases hf
      | ok format =>
        rw [hformat] at hprinted
        cases hprinted

theorem formatName (hV : V.Closed) : Keeps V Anything Run.formatName := by
  refine bind (popString hV) fun pattern hpattern => bind popInteger fun index _ =>
    bind (popString hV) fun names hnames => ?_
  dsimp only
  split
  · exact invalidArgument _
  · next name hname =>
    rw [Run.printName_eq]
    exact bind (printedName name pattern) fun printed hprinted =>
      push (hV.formatName hnames hpattern hname hprinted)

theorem swap : Keeps V Anything Run.swap :=
  bind pop fun _ htop => bind pop fun _ hbelow => bind (push htop) fun _ _ => push hbelow

theorem duplicate : Keeps V Anything Run.duplicate :=
  bind pop fun _ hv => bind (push hv) fun _ _ => push hv

theorem top : Keeps V Anything Run.top := bind pop fun _ _ => report _

theorem takeStack : Keeps V Anything Run.takeStack :=
  fun _ _ _ hm => ⟨hm.of_stack (List.forall_mem_nil _), trivial⟩

theorem stack : Keeps V Anything Run.stack := bind takeStack fun _ _ => report _

theorem current : Keeps V Anything Run.current := fun _ _ _ hm => ⟨hm, trivial⟩

theorem warning (hV : V.Closed) : Keeps V Anything Run.warning :=
  bind (popString hV) fun _ _ => bind current fun _ _ => report _

theorem emitLines (lines : List Text) : Keeps V Anything (Run.emitLines lines) := by
  induction lines with
  | nil => exact give trivial
  | cons line lines ih => exact bind (emit line) fun _ _ => bind (emit _) fun _ _ => ih

/-- A line is refused only for a brace that is unmatched in it. -/
theorem newline (hV : V.Closed) : Keeps V Anything Run.newline := by
  refine bind (takeLine hV) fun line hline => bind (Q := Anything) ?_ fun options _ => ?_
  · exact fun _ _ _ hm => ⟨hm, trivial⟩
  · dsimp only
    split
    · refine bind (Q := Anything) ?_ fun _ _ => emitLines _
      rw [Tex.checkBraces]
      split
      · exact give trivial
      · next hbalanced =>
        refine fun _ _ _ hm => ⟨hm, ?_⟩
        rintro b t ⟨⟩
        exact ⟨hline, by simpa using hbalanced⟩
    · exact emitLines _

theorem handlerName (hV : V.Closed) (hb : V.builtin .callType) :
    Keeps V V.name Run.handlerName := by
  refine bind activeName fun function _ => bind (currentEntry function) fun e he =>
    bind bindings fun bindings _ => ?_
  split
  · exact give (he.2 hb)
  · split
    · exact give (hV.defaultType hb)
    · exact fail fun _ _ h => by cases h

theorem preamble : Keeps V V.text Run.preamble := fun _ _ hs hm => ⟨hm, hs.preamble⟩

/-- **No function that runs no others leaves a vocabulary that it belongs to.** -/
theorem builtin (hV : V.Closed) (call : Text → Run Unit) (turns : Nat) {b : Builtin}
    (hb : V.builtin b) (hplain : b.runsOthers = false) :
    Keeps V Anything (runBuiltin call turns b) := by
  cases b with
  | callType | ifThenElse | «while» => cases hplain
  | greater | less => exact compare _
  | equal => exact equal
  | plus | minus => exact combine _
  | times => exact times hV
  | assign => exact assign hV
  | addPeriod => exact transform hV fun _ hs => hV.addPeriod hs
  | purify => exact transform hV fun _ hs => hV.purify hs
  | numNames | textLength | width => exact transform hV fun _ _ => trivial
  | changeCase => exact changeCase hV
  | chrToInt => exact chrToInt hV
  | cite => exact bind activeName fun _ _ => bind (currentKey _) fun _ hkey => push hkey
  | duplicate => exact duplicate
  | empty => exact empty
  | formatName => exact formatName hV
  | intToChr => exact intToChr hV hb
  | intToStr => exact bind popInteger fun n _ => push (hV.digits n)
  | missing => exact missing
  | newline => exact newline hV
  | pop => exact bind pop fun _ _ => give trivial
  | preamble => exact bind preamble fun _ ht => push ht
  | quote => exact push hV.quote
  | skip => exact give trivial
  | stack => exact stack
  | substring => exact substring hV hb
  | swap => exact swap
  | textPrefix => exact textPrefix hV
  | top => exact top
  | type => exact bind activeName fun _ _ => bind (currentEntry _) fun _ he => push he.1
  | warning => exact warning hV
  | write => exact bind (popString hV) fun _ ht => write ht

end Run.Keeps

end Bibliography.Style
