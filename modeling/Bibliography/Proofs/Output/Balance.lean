import Bibliography.Proofs.NameFormat.Balance
import Bibliography.Proofs.Run.Chronicle
import Bibliography.Proofs.Tex.Transformed

set_option autoImplicit false

/-! # Styles that keep braces balanced

Two functions can take a brace from its partner: one cuts a text at any place, the other makes a
text of a single character. All others make balanced texts from balanced texts. So if a style does
not mention the two, and the strings in it, the database and the requested keys are balanced, then
every text that it ever holds is balanced, and it never fails for an unmatched brace.

Main statement: `balanced_of_run`.
-/

namespace Bibliography

open Tex (isBalanced)

/-! ## Databases -/

/-- An entry whose texts are balanced: its key, its type, the values of its fields and the words of
its persons. -/
structure Entry.Balanced (e : Entry) : Prop where
  key : isBalanced e.key = true
  kind : isBalanced e.kind = true
  field : ∀ p ∈ e.fields, isBalanced p.2 = true
  person : ∀ row ∈ e.persons, ∀ p ∈ row.2, p.Balanced

structure Database.Balanced (d : Database) : Prop where
  entry : ∀ p ∈ d.entries, p.2.Balanced
  preamble : ∀ chunk ∈ d.preamble, isBalanced chunk = true

instance (p : Person) : Decidable p.Balanced :=
  inferInstanceAs (Decidable (∀ w ∈ p.allWords, isBalanced w = true))

instance (e : Entry) : Decidable e.Balanced :=
  decidable_of_iff (isBalanced e.key = true ∧ isBalanced e.kind = true ∧
      (∀ p ∈ e.fields, isBalanced p.2 = true) ∧ ∀ row ∈ e.persons, ∀ p ∈ row.2, p.Balanced)
    ⟨fun ⟨key, kind, field, person⟩ => ⟨key, kind, field, person⟩,
      fun h => ⟨h.key, h.kind, h.field, h.person⟩⟩

instance (d : Database) : Decidable d.Balanced :=
  decidable_of_iff ((∀ p ∈ d.entries, p.2.Balanced) ∧ ∀ chunk ∈ d.preamble, isBalanced chunk = true)
    ⟨fun ⟨entry, preamble⟩ => ⟨entry, preamble⟩, fun h => ⟨h.entry, h.preamble⟩⟩

/-- What a balanced entry says about a field is balanced, also if it is a list of persons. -/
theorem Entry.Balanced.ownValue {e : Entry} (h : e.Balanced) {name value : Text}
    (hvalue : e.ownValue? name = some value) : isBalanced value = true := by
  rw [Entry.ownValue?] at hvalue
  split at hvalue
  · next own hown =>
    cases hvalue
    exact h.field _ (Table.mem_of_get?_eq_some hown)
  · split at hvalue
    · cases hvalue
    · cases hvalue
      refine Tex.isBalanced_join (by decide) (List.forall_mem_map.2 fun p hp => ?_)
      rw [Entry.personsOf] at hp
      cases hpersons : e.persons.get? name.fold with
      | none =>
        rw [hpersons] at hp
        cases hp
      | some persons =>
        rw [hpersons] at hp
        exact (h.person _ (Table.mem_of_get?_eq_some hpersons) p hp).toText

namespace Style

/-! ## The vocabulary -/

def balancedTexts : Vocabulary where
  text s := isBalanced s = true
  name n := n ≠ "substring$".toList ∧ n ≠ "int.to.chr$".toList
  builtin b := b ≠ .substring ∧ b ≠ .intToChr

instance : DecidablePred balancedTexts.text :=
  fun s => inferInstanceAs (Decidable (isBalanced s = true))

instance : DecidablePred balancedTexts.name := fun _ => inferInstanceAs (Decidable (_ ∧ _))

/-- Numbers are written without braces. -/
theorem isBalanced_digits (n : Int) : isBalanced (toString n).toList = true := by
  have hdigit : ∀ c : Char, c.isDigit = true → NameFormat.isBrace c = false :=
    fun c hc => Tex.isBrace_eq_false_of (by decide) (by decide) hc
  have hnat : ∀ m : Nat, ∀ c ∈ m.repr.toList, NameFormat.isBrace c = false := by
    intro m c hc
    rw [Nat.toList_repr] at hc
    exact hdigit c (Nat.isDigit_of_mem_toDigits (by decide) (by decide) hc)
  refine Tex.isBalanced_of_no_braces ?_
  cases n with
  | ofNat m => exact hnat m
  | negSucc m =>
    have hsign : (toString (Int.negSucc m)).toList = '-' :: (m + 1).repr.toList := by
      simp [Int.repr]
    rw [hsign]
    exact List.forall_mem_cons.2 ⟨rfl, hnat (m + 1)⟩

theorem isBalanced_of_nameAt? {names name : Text} {index : Int} (hnames : isBalanced names = true)
    (h : Run.nameAt? (Tex.splitNameList names) index = some name) : isBalanced name = true := by
  rw [Run.nameAt?] at h
  split at h
  · exact Tex.isBalanced_of_mem_splitNameList hnames (List.mem_of_getElem? h)
  · cases h

/-- **All functions but two make balanced texts from balanced texts.** -/
theorem closed_balancedTexts : balancedTexts.Closed where
  defaultType _ := by constructor <;> decide
  nil := rfl
  append := Tex.isBalanced_append
  addPeriod := Tex.isBalanced_addPeriod
  changeCase mode hs := Tex.isBalanced_changeCase hs mode
  formatName hnames _ hname hprinted :=
    isBalanced_formatName (isBalanced_of_nameAt? hnames hname) hprinted
  character hb := absurd rfl hb.2
  digits := isBalanced_digits
  purify {s} _ := Tex.isBalanced_purify s
  quote := rfl
  substring hb := absurd rfl hb.1
  textPrefix n hs := Tex.isBalanced_textPrefix hs n

/-! ## Runs -/

/-- A machine whose texts are balanced: on the stack, in variables and in the line that is not
finished. -/
structure Machine.Balanced (m : Machine) : Prop where
  stack : ∀ s, Value.string s ∈ m.stack → isBalanced s = true
  global : ∀ name s, m.bindings.get? name = some (.string s) → isBalanced s = true
  ofEntry : ∀ key vars, m.entryVariables.get? key = some vars →
    ∀ name s, vars.strings.get? name = some s → isBalanced s = true
  output : isBalanced m.output = true

theorem Machine.Within.balanced {m : Machine} (h : m.Within balancedTexts) : m.Balanced where
  stack s hs := h.stack (.string s) hs
  global name s hs := h.bindings name (.string s) hs
  ofEntry := h.entryStrings
  output := closed_balancedTexts.flatten fun s hs => h.pending s (List.mem_reverse.1 hs)

theorem databaseWithin_of_balanced {d : Database} (h : d.Balanced)
    (hkinds : ∀ p ∈ d.entries, balancedTexts.name p.2.kind) : DatabaseWithin balancedTexts d where
  entry p hp :=
    { key := (h.entry p hp).key
      kind := (h.entry p hp).kind
      handler := fun _ => hkinds p hp
      value := fun _ _ hvalue => (h.entry p hp).ownValue hvalue }
  preamble := h.preamble

/-- Before any declaration names are bound to built-in functions, the two under their names. -/
theorem initialBindings_within {name : Text} {b : Binding}
    (h : initialBindings.get? name = some b) : b.Within balancedTexts name := by
  rcases eq_of_initialBindings h with ⟨c, rfl, rfl⟩ | ⟨n, rfl⟩ | rfl
  · -- no other name leads to one of the two
    rintro ⟨hsubstring, hcharacter⟩
    constructor
    · rintro rfl
      exact hsubstring rfl
    · rintro rfl
      exact hcharacter rfl
  · trivial
  · trivial

theorem confined_fresh (o : Options) {source : Source} (answers : SinkAnswers) {p : Program}
    {citations bibFiles : List Text} (hprogram : p.Within balancedTexts)
    (hcitations : ∀ c ∈ citations, isBalanced c = true)
    (hdata : ∀ d, (source.load bibFiles (p.abbreviationsAtRead .months)).1 = .ok d →
      d.Balanced ∧ ∀ row ∈ d.entries, balancedTexts.name row.2.kind) :
    ({ Interpreter.fresh o source answers with citations := citations } : Interpreter).Confined
      balancedTexts bibFiles p where
  machine :=
    { bindings := fun _ _ hb => initialBindings_within hb
      stack := List.forall_mem_nil _
      entryStrings := fun _ _ hvars => nomatch hvars
      pending := List.forall_mem_nil _ }
  cited := hcitations
  data := databaseWithin_empty
  program := hprogram
  loads _ d hload := databaseWithin_of_balanced (hdata d hload).1 (hdata d hload).2

/-- No unmatched brace is found in a balanced text. -/
theorem Fault.Within.ne_unmatchedBraces {f : Fault} (h : f.Within balancedTexts) (b : Builtin)
    (s : Text) : f.root ≠ .text b (.unmatchedBraces s) := by
  intro hf
  obtain ⟨hbalanced, hunbalanced⟩ := h b s hf
  have hbalanced : isBalanced s = true := hbalanced
  rw [hbalanced] at hunbalanced
  cases hunbalanced

/-- **From balanced texts a style makes balanced texts.** The strings of a style are balanced, also
those in blocks, and it does not mention the two functions that take braces from their partners
(`balancedTexts`); the requested keys and the database that it reads are balanced, and no type of an
entry has the name of one of the two. Then at every moment every text on the stack, in a variable
and in the line that is not finished is balanced, and the run fails for no unmatched brace. -/
theorem balanced_of_run (fuel : Nat) (o : Options) (source : Source) (answers : SinkAnswers)
    (p : Program) (citations bibFiles : List Text) (hprogram : p.Within balancedTexts)
    (hcitations : ∀ c ∈ citations, isBalanced c = true)
    (hdata : ∀ d, (source.load bibFiles (p.abbreviationsAtRead .months)).1 = .ok d →
      d.Balanced ∧ ∀ row ∈ d.entries, balancedTexts.name row.2.kind) :
    (∀ e ∈ (Interpreter.fresh o source answers).history fuel p citations bibFiles,
      e.before.Balanced ∧ e.after.Balanced) ∧
    ∀ r i', (Interpreter.fresh o source answers).run fuel p citations bibFiles = some (r, i') →
      i'.machine.Balanced ∧ ∀ e, r = .error e → ∀ b s, e.root ≠ .text b (.unmatchedBraces s) := by
  have hconfined := confined_fresh o answers hprogram hcitations hdata
  refine ⟨fun e he => ?_, fun r i' hrun => ?_⟩
  · obtain ⟨hbefore, hafter⟩ :=
      Interpreter.Confined.history closed_balancedTexts hconfined fuel e he
    exact ⟨hbefore.balanced, hafter.balanced⟩
  · have hends := Interpreter.Confined.run closed_balancedTexts hconfined hrun
    refine ⟨hends.machine.balanced, ?_⟩
    rintro e rfl
    exact Fault.Within.ne_unmatchedBraces hends.2

/-- A style that puts together a name and the start of a title. -/
def Program.nameSample : Program :=
  [⟨.entry ["author".toList, "title".toList] [] ["label".toList], ⟨0, .bare 0, .bare 0⟩⟩,
    ⟨.function "article".toList [.name "author".toList, .integer 1,
      .string "\x7bf.~\x7d\x7bll\x7d".toList, .name "format.name$".toList,
      .quoted "label".toList, .name ":=".toList,
      .name "label".toList, .string ", ".toList, .name "*".toList,
      .name "title".toList, .string "t".toList, .name "change.case$".toList,
      .integer 5, .name "text.prefix$".toList, .name "add.period$".toList,
      .name "*".toList, .name "write$".toList], ⟨0, .bare 0, .bare 0⟩⟩,
    ⟨.read, ⟨0, .bare 0, .bare 0⟩⟩,
    ⟨.iterate "call.type$".toList, ⟨0, .bare 0, .bare 0⟩⟩]

def bracedDatabase : Database where
  entries :=
    [("k".toList,
        { key := "k".toList
          kind := "article".toList
          fields := [("title".toList, "On \x7bTeX\x7d Things".toList)]
          persons := [("author".toList,
            [{ first := ["\x7b\\'E\x7dmile".toList], last := ["Zola".toList] }])] })]
  keyed := by decide
  distinct := by decide

/-- The title is cut inside a group, and the group is closed. -/
theorem balanced_of_nameSample :
    ∃ i', (Interpreter.fresh {} (.memory bracedDatabase) .willing).run 20 Program.nameSample
        ["k".toList] [] = some (.ok (), i') ∧ i'.machine.Balanced ∧
      i'.machine.sink.written = "\x7b\\'E\x7d.~Zola, On \x7bTe\x7d.\n".toList := by
  have h := balanced_of_run 20 {} (.memory bracedDatabase) .willing Program.nameSample
    ["k".toList] [] (by decide) (by decide) (by rintro d ⟨⟩; exact ⟨by decide, by decide⟩)
  obtain ⟨i', hrun, hwritten⟩ := Interpreter.exists_of_any_isOk
    (x := (Interpreter.fresh {} (.memory bracedDatabase) .willing).run 20 Program.nameSample
      ["k".toList] [])
    (P := fun i' => i'.machine.sink.written == "\x7b\\'E\x7d.~Zola, On \x7bTe\x7d.\n".toList)
    (by decide +kernel)
  exact ⟨i', hrun, (h.2 _ _ hrun).1, by simpa using hwritten⟩

end Style

end Bibliography
