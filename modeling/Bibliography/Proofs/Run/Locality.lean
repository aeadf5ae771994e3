import Bibliography.Proofs.Run.History

set_option autoImplicit false

/-! # What lies below on the stack

A run works at the top of the stack. What lies below the values that it takes is neither read nor
changed: if a run does not find too few values on a stack, then on a stack with more values at the
bottom it does the same, and the additional values lie at the bottom still (`Run.Local`). The one
exception is the function that shows the whole stack and empties it. So the statement is about
tokens from which that function is not reached (`Reachable`): neither through the functions that
they call, nor through what lies on the stack already, nor through the type of the entry.

Main statement: `runTokens_above`.
-/

namespace Bibliography.Style

/-! ## More values at the bottom -/

/-- The machine with more values at the bottom of its stack. -/
def Machine.above (m : Machine) (below : List Value) : Machine :=
  { m with stack := m.stack ++ below }

def Outcome.above {α : Type} (below : List Value) : Outcome α → Outcome α
  | .done a m => .done a (m.above below)
  | .failed f m => .failed f (m.above below)
  | .unfinished => .unfinished

/-- A function took more values than there were. -/
def Fault.IsUnderflow : Fault → Prop
  | .stackUnderflow _ => True
  | _ => False

/-- The run failed because a function took more values than there were. -/
def Outcome.Underflows {α : Type} : Outcome α → Prop
  | .failed f _ => f.IsUnderflow
  | .done _ _ | .unfinished => False

/-- More values at the bottom of the stack make no difference, if there are enough without them. -/
def Run.LocalAt {α : Type} (s : Scene) (m : Machine) (x : Run α) : Prop :=
  ¬ (x s m).Underflows → ∀ below, x s (m.above below) = (x s m).above below

/-- A run for which no values at the bottom of the stack make a difference. -/
def Run.Local {α : Type} (x : Run α) : Prop := ∀ s m, x.LocalAt s m

namespace Run

variable {α β : Type}

/-- One run after another, the second one on the machine that the first one leaves. -/
theorem LocalAt.bind {x : Run α} {f : α → Run β} {s : Scene} {m : Machine} (hx : x.LocalAt s m)
    (hf : ∀ a m', x s m = .done a m' → (f a).LocalAt s m') : (x >>= f).LocalAt s m := by
  intro hends below
  rw [bind_apply] at hends
  cases hxs : x s m with
  | done a m' =>
    rw [hxs] at hends
    have hfirst := hx (by rw [hxs]; exact id) below
    rw [hxs] at hfirst
    rw [bind_apply, bind_apply, hfirst, hxs]
    -- the second run starts on what the first one left, with the same values below
    exact hf a m' hxs hends below
  | failed e m' =>
    rw [hxs] at hends
    have hfirst := hx (by rw [hxs]; exact hends) below
    rw [hxs] at hfirst
    rw [bind_apply, bind_apply, hfirst, hxs]
    rfl
  | unfinished =>
    have hfirst := hx (by rw [hxs]; exact id) below
    rw [hxs] at hfirst
    rw [bind_apply, bind_apply, hfirst, hxs]
    rfl

namespace Local

theorem bind {x : Run α} {f : α → Run β} (hx : x.Local) (hf : ∀ a, (f a).Local) :
    (x >>= f).Local :=
  fun s m => (hx s m).bind fun a m' _ => hf a s m'

theorem give (a : α) : (Run.give a).Local := fun _ _ _ _ => rfl

theorem fail (f : Fault) : (Run.fail f : Run α).Local := fun _ _ _ _ => rfl

/-- A run that changes the machine elsewhere, or puts something on the stack. -/
theorem change {f : Machine → Machine}
    (hf : ∀ (m : Machine) below, f (m.above below) = (f m).above below) : (Run.change f).Local :=
  fun _ m _ below => congrArg (Outcome.done ()) (hf m below)

/-- There is a value at the top, or there are too few. -/
theorem pop : Run.pop.Local := by
  intro s m hends below
  cases hstack : m.stack with
  | nil => simp [Run.pop, hstack, Outcome.Underflows, Fault.IsUnderflow] at hends
  | cons v vs => simp [Run.pop, Machine.above, hstack, Outcome.above]

/-- What plain functions are made of works at the top of the stack. -/
theorem plain : Run.Plain @Run.Local :=
  Run.Basic.plain
    { give := give
      bind := bind
      fail := fail
      scene := fun _ _ _ _ => rfl
      bindings := fun _ _ _ _ => rfl
      variablesOf := fun _ _ _ _ _ => rfl
      setBinding := fun _ _ => change fun _ _ => rfl
      setVariables := fun _ _ => change fun _ _ => rfl
      push := fun _ => change fun _ _ => rfl
      pop := pop
      report := fun _ => change fun _ _ => rfl }

/-! ### The output -/

theorem emit (piece : Text) : (Run.emit piece).Local := by
  intro s m _ below
  simp only [Run.emit, Machine.above]
  rcases m.sink.write piece with ⟨_ | _, sink⟩ <;> rfl

theorem newline : Run.newline.Local :=
  plain.newline (fun _ _ _ _ => rfl) (fun _ _ _ _ => rfl) emit

theorem write : (Run.popString >>= Run.write).Local :=
  bind plain.popString fun _ => change fun _ _ => rfl

end Local

end Run

/-! ## Reachable names -/

/-- A token that is no block mentions a name, to run it or to put a reference to it. -/
def Token.Mentions (name : Text) : Token → Prop
  | .name n | .quoted n => n = name
  | .integer _ | .string _ | .block _ => False

/-- A row of tokens mentions a name, perhaps in a block. -/
def Token.AnyMentions (ts : List Token) (name : Text) : Prop :=
  ∃ t ∈ Token.leavesAll ts, t.Mentions name

/-- The names that tokens may come to run, in the tokens themselves, in what lies on the stack, in
the bodies of functions, and as types of entries. -/
inductive Reachable (s : Scene) (m : Machine) (ts : List Token) : Text → Prop where
  | token {name : Text} (h : Token.AnyMentions ts name) : Reachable s m ts name
  | function {body : List Token} {name : Text} (hv : .function body ∈ m.stack)
      (h : Token.AnyMentions body name) : Reachable s m ts name
  | reference {name : Text} (hv : .reference name ∈ m.stack) : Reachable s m ts name
  | body {caller name : Text} {body : List Token} (hcaller : Reachable s m ts caller)
      (hb : m.bindings.get? caller = some (.function body)) (h : Token.AnyMentions body name) :
      Reachable s m ts name
  | kind {caller : Text} {e : Entry} (hcaller : Reachable s m ts caller)
      (hb : m.bindings.get? caller = some (.builtin .callType))
      (he : s.current.bind s.data.entry? = some e) : Reachable s m ts e.kind
  | defaultType {caller : Text} (hcaller : Reachable s m ts caller)
      (hb : m.bindings.get? caller = some (.builtin .callType)) :
      Reachable s m ts "default.type".toList

section

variable {s : Scene} {m : Machine} {ts : List Token}

/-- All texts, the names that are reachable and the functions that they are bound to. -/
def reachableNames (s : Scene) (m : Machine) (ts : List Token) : Vocabulary where
  text _ := True
  name := Reachable s m ts
  builtin b := ∃ name, Reachable s m ts name ∧ m.bindings.get? name = some (.builtin b)

theorem allWithin_of_mentions {V : Vocabulary} (htext : ∀ t, V.text t) {ts : List Token}
    (h : ∀ name, Token.AnyMentions ts name → V.name name) : Token.AllWithin V ts := by
  intro t ht
  cases t with
  | name n => exact h n ⟨.name n, ht, rfl⟩
  | quoted n => exact h n ⟨.quoted n, ht, rfl⟩
  | string t => exact htext t
  | integer _ | block _ => trivial

theorem closed_reachableNames : (reachableNames s m ts).Closed := by
  constructor
  case defaultType => exact fun ⟨_, hname, hb⟩ => .defaultType hname hb
  all_goals intros; trivial

theorem scene_within_reachableNames : s.Within (reachableNames s m ts) where
  key _ _ := trivial
  kind _ _ := trivial
  handler _ he := fun ⟨_, hname, hb⟩ => .kind hname hb he
  field _ _ _ _ _ := trivial
  preamble := trivial

theorem machine_within_reachableNames : m.Within (reachableNames s m ts) where
  bindings name b hb := by
    cases b with
    | builtin b => exact fun hname => ⟨name, hname, hb⟩
    | function body =>
      exact fun hname => allWithin_of_mentions (fun _ => trivial) fun _ h => .body hname hb h
    | integer _ | string _ | field | entryInteger | entryString => trivial
  stack v hv := by
    cases v with
    | function body => exact allWithin_of_mentions (fun _ => trivial) fun _ h => .function hv h
    | reference name => exact .reference hv
    | integer _ | string _ | missing _ => trivial
  entryStrings _ _ _ _ _ _ := trivial
  pending _ _ := trivial

end

/-! ## Tales -/

/-- A tale that stays within a vocabulary works at the top of the stack. -/
def Tale.LocalWithin (V : Vocabulary) {α : Type} (t : Tale α) : Prop :=
  ∀ s m, s.Within V → m.Within V → t.run.LocalAt s m

theorem Tale.closed_localWithin {V : Vocabulary} (hstack : ¬ V.builtin .stack) :
    Tale.Closed V (Tale.LocalWithin V) where
  andThen ht hkeeps hf s m hs hm := by
    refine (ht s m hs hm).bind fun a m' hdone => ?_
    have hfits := hkeeps s m hs hm
    rw [hdone] at hfits
    exact hf a hfits.2 s m' hs hfits.1
  unfinished _ _ _ _ _ _ := rfl
  running b _ ht s m hs hm :=
    ht { s with active := some b } m ⟨hs.key, hs.kind, hs.handler, hs.field, hs.preamble⟩ hm
  calling name t ht s m hs hm hends below := by
    simp only [Tale.calling, Run.calling_apply] at hends ⊢
    split
    · rfl
    · next hdepth =>
      rw [if_neg hdepth] at hends
      exact ht { s with depth := s.depth + 1 } m
        ⟨hs.key, hs.kind, hs.handler, hs.field, hs.preamble⟩ hm hends below
  plain _ _ hplain s m _ _ := hplain _ Run.Local.plain s m
  stack hb := absurd hb hstack
  newline _ s m _ _ := Run.Local.newline s m
  write _ s m _ _ := Run.Local.write s m

/-- **A style cannot reach below the values that it takes.** Tokens from which the function that
empties the stack is not reached do the same when more values lie at the bottom of the stack, and
leave these there, unless they fail because there are too few without them. -/
theorem runTokens_above (fuel : Nat) (ts : List Token) (s : Scene) (m : Machine)
    (hstack : ∀ name, Reachable s m ts name → m.bindings.get? name ≠ some (.builtin .stack))
    (hends : ¬ (runTokens (runName fuel) ts s m).Underflows) (below : List Value) :
    runTokens (runName fuel) ts s (m.above below) =
      (runTokens (runName fuel) ts s m).above below := by
  -- the reachable names are a closed vocabulary that lacks the one function
  have hbuiltin : ¬ (reachableNames s m ts).builtin .stack :=
    fun ⟨name, hname, hb⟩ => hstack name hname hb
  have hclosed := Tale.closed_localWithin hbuiltin
  have htokens : Token.AllWithin (reachableNames s m ts) ts :=
    allWithin_of_mentions (fun _ => trivial) fun _ h => .token h
  have htale := (hclosed.judgement closed_reachableNames).ofTokens
    (fun name hname => hclosed.ofName closed_reachableNames fuel hname) htokens
  have hlocal := htale.property s m scene_within_reachableNames machine_within_reachableNames
  rw [Tale.correspondence_run.runTokens (Tale.run_ofName fuel)] at hlocal
  exact hlocal hends below

/-- A machine with a function that writes a text twice, and a text on the stack. -/
def Machine.twiceSample : Machine where
  bindings := initialBindings ++
    [("twice".toList, .function [.name "duplicate$".toList, .name "*".toList])]
  stack := [.string "ab".toList]
  sink := { answers := .willing }

/-- Below lies a function that would empty the stack, but nothing runs it. -/
theorem runTokens_above_twiceSample :
    runTokens (runName 3) [.name "twice".toList] {}
        (Machine.twiceSample.above [.function [.name "stack$".toList]]) =
      .done () { Machine.twiceSample with
        stack := [.string "abab".toList, .function [.name "stack$".toList]] } := by
  have htwice : Machine.twiceSample.bindings.get? "twice".toList =
      some (.function [.name "duplicate$".toList, .name "*".toList]) := rfl
  have hduplicate : Machine.twiceSample.bindings.get? "duplicate$".toList =
      some (.builtin .duplicate) := rfl
  have htimes : Machine.twiceSample.bindings.get? "*".toList = some (.builtin .times) := rfl
  have hreachable : ∀ name,
      Reachable {} Machine.twiceSample [.name "twice".toList] name →
      name = "twice".toList ∨ name = "duplicate$".toList ∨ name = "*".toList := by
    intro name hname
    induction hname with
    | token h =>
      obtain ⟨t, ht, h⟩ := h
      obtain rfl := List.mem_singleton.1 ht
      exact Or.inl h.symm
    | function hv _ | reference hv => cases List.mem_singleton.1 hv
    | body _ hb h ih =>
      rcases ih with rfl | rfl | rfl
      · cases htwice.symm.trans hb
        obtain ⟨t, ht, h⟩ := h
        rcases List.mem_cons.1 ht with rfl | ht
        · exact Or.inr (Or.inl h.symm)
        · obtain rfl := List.mem_singleton.1 ht
          exact Or.inr (Or.inr h.symm)
      · cases hduplicate.symm.trans hb
      · cases htimes.symm.trans hb
    | kind _ hb _ ih | defaultType _ hb ih =>
      rcases ih with rfl | rfl | rfl
      · cases htwice.symm.trans hb
      · cases hduplicate.symm.trans hb
      · cases htimes.symm.trans hb
  have hrun : runTokens (runName 3) [.name "twice".toList] {} Machine.twiceSample =
      .done () { Machine.twiceSample with stack := [.string "abab".toList] } := rfl
  have hstack : ∀ name, Reachable {} Machine.twiceSample [.name "twice".toList] name →
      Machine.twiceSample.bindings.get? name ≠ some (.builtin .stack) := by
    intro name hname hb
    rcases hreachable name hname with rfl | rfl | rfl
    · cases htwice.symm.trans hb
    · cases hduplicate.symm.trans hb
    · cases htimes.symm.trans hb
  rw [runTokens_above 3 [.name "twice".toList] {} Machine.twiceSample hstack
    (by rw [hrun]; exact id) _, hrun]
  rfl

end Bibliography.Style
