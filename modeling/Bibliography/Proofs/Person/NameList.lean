import Bibliography.Database.Basic
import Bibliography.Proofs.Person.Printing
import Bibliography.Proofs.Run.Steps
import Bibliography.Proofs.Unicode.Folding
import Bibliography.Style.Functions
import Mathlib.Data.List.TakeWhile

set_option autoImplicit false

/-! # Persons as a name list

An entry without a field but with persons in its place has them as a name list: each written with
commas, and `and` between them. Such a list is cut where it was joined. A separator that began
inside a name would make a word `and` of it, since what stands between blanks and commas outside
braces in a written name is its words (`nonemptyParts_toText`), and one cannot end behind the list.
So the names are those of the persons, in their order, but for white space at their ends, which a
name without given names can have.

Main statement: `splitNameList_of_personsOf`.
-/

namespace Bibliography

namespace Tex

open NameFormat (isBrace)

/-! ## Separators that are texts -/

/-- Whether no separator begins inside a text at a place where no brace is open, be the text the
last part or followed by a separator. -/
def Unseparated (sep d : Text) : Prop :=
  ∀ before after tail, d = before ++ after → openAfter? 0 before = some 0 → after ≠ [] →
    (tail = [] ∨ ∃ rest, tail = sep ++ rest) → separates sep (after ++ tail) = false

/-- A text in which no separator begins is read to its end. -/
theorem splitTextFrom_append {sep d tail : Text} {atStart : Bool} {n : Nat} {part : Text}
    (hd : openAfter? n d = some 0)
    (hsep : ∀ before after, d = before ++ after → openAfter? n before = some 0 → after ≠ [] →
      separates sep (after ++ tail) = false) :
    splitTextFrom sep atStart n 0 part (d ++ tail) =
      splitTextFrom sep (atStart && d.isEmpty) 0 0 (d.reverse ++ part) tail := by
  induction d generalizing atStart n part with
  | nil =>
    cases hd
    simp
  | cons c d ih =>
    obtain ⟨n', hlevel, hd', hopen⟩ := levelAfter_of_openAfter? hd
    have hnone : ¬ (c ≠ '{' ∧ c ≠ '}' ∧ (n : Int) = 0 ∧ ¬ atStart ∧
        separates sep (c :: (d ++ tail))) := by
      rintro ⟨-, -, hn, -, hseparates⟩
      obtain rfl : n = 0 := by exact_mod_cast hn
      have hfalse := hsep [] (c :: d) rfl rfl (List.cons_ne_nil c d)
      exact Bool.false_ne_true (hfalse.symm.trans hseparates)
    have hrest : splitTextFrom sep false n' 0 (c :: part) (d ++ tail) =
        splitTextFrom sep (false && d.isEmpty) 0 0 (d.reverse ++ c :: part) tail :=
      ih hd' fun before after heq hb =>
        hsep (c :: before) after (congrArg (c :: ·) heq) ((hopen before).trans hb)
    rw [List.cons_append, splitTextFrom.eq_def]
    dsimp only
    rw [if_neg hnone, hlevel, hrest]
    simp

section Separator

variable {sep : Text} (hbrace : ∀ c ∈ sep, isBrace c = false) (hne : sep ≠ [])
include hbrace hne

/-- A separator with something behind it ends a part. -/
theorem splitTextFrom_separator (part : Text) {rest : Text} (hrest : rest ≠ []) :
    splitTextFrom sep false 0 0 part (sep ++ rest) =
      part.reverse :: splitTextFrom sep false 0 0 [] rest := by
  have hseparates : separates sep (sep ++ rest) = true :=
    separates_eq_true_iff.2 ⟨sep, rest, rfl, rfl, hrest⟩
  cases sep with
  | nil => exact absurd rfl hne
  | cons a sep =>
    rw [List.forall_mem_cons] at hbrace
    have ha : a ≠ '{' ∧ a ≠ '}' := isBrace_eq_false_iff.1 hbrace.1
    rw [List.cons_append] at hseparates ⊢
    rw [splitTextFrom, if_pos ⟨ha.1, ha.2, rfl, Bool.false_ne_true, hseparates⟩]
    refine congrArg (part.reverse :: ·) ((splitTextFrom_skip _ sep 0 [] rest).trans ?_)
    rw [foldl_levelAfter_of_no_braces hbrace.2]

theorem splitTextFrom_join {d : Text} {ds : List Text}
    (hds : ∀ q ∈ d :: ds, isBalanced q = true ∧ q ≠ [] ∧ Unseparated sep q) (atStart : Bool) :
    splitTextFrom sep atStart 0 0 [] (Text.join sep (d :: ds)) = d :: ds := by
  induction ds generalizing d atStart with
  | nil =>
    obtain ⟨hd, -, hin⟩ := hds d List.mem_cons_self
    have hread : splitTextFrom sep atStart 0 0 [] (d ++ []) =
        splitTextFrom sep (atStart && d.isEmpty) 0 0 (d.reverse ++ []) [] :=
      splitTextFrom_append ((isBalanced_iff d).1 hd) fun before after heq hb hafter =>
        hin before after [] heq hb hafter (Or.inl rfl)
    simpa [splitTextFrom, Text.join] using hread
  | cons q ds ih =>
    rw [List.forall_mem_cons] at hds
    obtain ⟨⟨hd, hd', hin⟩, hds⟩ := hds
    have hrest : Text.join sep (q :: ds) ≠ [] := by
      have hq := (hds q List.mem_cons_self).2.1
      cases ds <;> simp [Text.join, hq]
    have hread : splitTextFrom sep atStart 0 0 [] (d ++ (sep ++ Text.join sep (q :: ds))) =
        splitTextFrom sep (atStart && d.isEmpty) 0 0 (d.reverse ++ [])
          (sep ++ Text.join sep (q :: ds)) :=
      splitTextFrom_append ((isBalanced_iff d).1 hd) fun before after heq hb hafter =>
        hin before after _ heq hb hafter (Or.inr ⟨_, rfl⟩)
    -- the part is not empty, so the separator does not stand at the start
    have hstart : (atStart && d.isEmpty) = false := by simp [hd']
    rw [join_cons_cons, List.append_assoc, hread, hstart, List.append_nil,
      splitTextFrom_separator hbrace hne _ hrest, List.reverse_reverse, ih hds]

/-- **A text is cut where it was joined**, if no separator begins inside its parts. -/
theorem splitText_join {ds : List Text} (hds : ds ≠ [])
    (h : ∀ d ∈ ds, isBalanced d = true ∧ d ≠ [] ∧ Unseparated sep d) :
    splitText (Text.join sep ds) sep = ds.map Text.trim := by
  obtain ⟨d, ds, rfl⟩ := List.exists_cons_of_ne_nil hds
  rw [splitText, splitTextFrom_join hbrace hne h true]

end Separator

/-! ## The word between names -/

/-- Whether a character stands between the words of a written name. -/
def isMark (c : Char) : Bool := c == ' ' || c == ','

theorem isBrace_eq_false_of_isMark {c : Char} (h : isMark c = true) : isBrace c = false :=
  isBrace_eq_false_of (by decide) (by decide) h

/-- Only small letters are what other characters become in lower case. -/
theorem eq_of_toLower_eq {c d : Char} (h : c.toLower = d) (hd : d.isLower = false) : c = d := by
  cases hc : c.isUpper with
  | true =>
    have hlower := Unicode.isLower_toLower hc
    rw [h, hd] at hlower
    cases hlower
  | false => exact (Unicode.toLower_of_isUpper_eq_false hc).symm.trans h

/-- The letters of a word that reads `and` in some case. -/
theorem not_isMark_of_mem {word : Text} (hword : Text.asciiLower word = "and".toList) :
    ∀ c ∈ word, isMark c = false ∧ isBrace c = false := by
  intro c hc
  have hlower : c.toLower ∈ "and".toList := hword ▸ List.mem_map_of_mem hc
  constructor
  · by_contra hmark
    rw [Bool.not_eq_false, isMark, Bool.or_eq_true, beq_iff_eq, beq_iff_eq] at hmark
    obtain rfl | rfl := hmark
    all_goals exact absurd hlower (by decide)
  · rw [← isBrace_toLower]
    exact isBrace_eq_false_of_all (by decide) _ hlower

/-- A word `and` between blanks, or behind the last one, is a word of a written name. -/
theorem mem_nonemptyParts_of_word {before word after : Text}
    (hbefore : openAfter? 0 before = some 0) (hword : Text.asciiLower word = "and".toList)
    (hafter : after = [] ∨ ∃ rest, after = ' ' :: rest) :
    word ∈ nonemptyParts isMark (before ++ ' ' :: (word ++ after)) := by
  have hletters := not_isMark_of_mem hword
  have hbalanced : isBalanced word = true := isBalanced_of_no_braces fun c hc => (hletters c hc).2
  have hne : word ≠ [] := by
    rintro rfl
    exact absurd hword (by decide)
  have hparts : nonemptyParts isMark word = [word] :=
    nonemptyParts_of_onlyInBraces hbalanced
      (onlyInBraces_of_no_separator (fun c hc => (hletters c hc).1) 0) hne
  rw [nonemptyParts_append_cons ((isBalanced_iff before).2 hbefore) rfl rfl]
  refine List.mem_append_right _ ?_
  rcases hafter with rfl | ⟨rest, rfl⟩
  · rw [List.append_nil, hparts]
    exact List.mem_singleton_self word
  · rw [nonemptyParts_append_cons hbalanced rfl rfl, hparts]
    exact List.mem_cons_self

theorem IsWord.onlyInBraces_isMark {w : Text} (hw : IsWord w) : OnlyInBraces isMark 0 w := by
  intro before c after heq hc
  rcases Bool.or_eq_true_iff.1 hc with hc | hc
  · obtain rfl : c = ' ' := by simpa using hc
    exact hw.gaps before ' ' after heq (by decide)
  · exact hw.commas before c after heq hc

/-- **No separator begins inside a text without a word `and`.** -/
theorem unseparated_of_no_word {d : Text}
    (h : ∀ w ∈ nonemptyParts isMark d, Text.sameIgnoringAsciiCase w "and".toList = false) :
    Unseparated " and ".toList d := by
  intro before after tail heq hbefore hafter htail
  by_contra hseparates
  rw [Bool.not_eq_false] at hseparates
  obtain ⟨p, r, hp, hlower, -⟩ := separates_eq_true_iff.1 hseparates
  -- what stands there is a blank, the word and another blank
  have hseparator : Text.asciiLower " and ".toList = ' ' :: ("and".toList ++ [' ']) := by decide
  rw [hseparator] at hlower
  obtain ⟨c, q, rfl, hc, hq⟩ := List.map_eq_cons_iff.1 hlower
  obtain ⟨word, q', rfl, hword, hq'⟩ := List.map_eq_append_iff.1 hq
  obtain ⟨c', q'', rfl, hc', hq''⟩ := List.map_eq_cons_iff.1 hq'
  obtain rfl : c = ' ' := eq_of_toLower_eq hc rfl
  obtain rfl : c' = ' ' := eq_of_toLower_eq hc' rfl
  obtain ⟨x, u, rfl⟩ := List.exists_cons_of_ne_nil hafter
  obtain ⟨rfl, hu⟩ := List.cons.inj hp
  have hu : u ++ tail = word ++ (' ' :: (q'' ++ r)) := by simpa using hu
  have hmem : ∀ rest, (rest = [] ∨ ∃ t, rest = ' ' :: t) → u = word ++ rest → False := by
    rintro rest hrest rfl
    have hmem := mem_nonemptyParts_of_word hbefore hword hrest
    rw [← heq] at hmem
    have hfalse := h word hmem
    have hword : Text.asciiLower word = "and".toList := hword
    rw [Text.sameIgnoringAsciiCase, hword] at hfalse
    exact absurd hfalse (by decide)
  rcases List.append_eq_append_iff.1 hu with ⟨v, hv, htail'⟩ | ⟨v, hv, hrest⟩
  · cases v with
    | nil => exact hmem [] (Or.inl rfl) (by simpa using hv.symm)
    | cons x v =>
      -- the word cannot reach into what follows, which starts with a blank
      obtain rfl : x = ' ' := by
        rcases htail with rfl | ⟨rest, rfl⟩
        · cases htail'
        · exact (List.cons.inj htail').1.symm
      have hmark := (not_isMark_of_mem hword ' ' (by simp [hv])).1
      cases hmark
  · refine hmem v ?_ hv
    cases v with
    | nil => exact Or.inl rfl
    | cons x v =>
      obtain ⟨rfl, -⟩ := List.cons.inj hrest
      exact Or.inr ⟨v, rfl⟩

end Tex

/-! ## Written names -/

namespace Person

open Tex

/-- **Between blanks and commas outside braces a written name has its words.** -/
theorem nonemptyParts_toText {p : Person} (h : ∀ w ∈ p.allWords, IsWord w) :
    nonemptyParts isMark p.toText = p.segments.flatten := by
  have hmark : ∀ c, isMark c = true → NameFormat.isBrace c = false :=
    fun _ => isBrace_eq_false_of_isMark
  have hsegments : ∀ words ∈ p.segments, ∀ w ∈ words, IsWord w := fun words hwords w hw =>
    h w (mem_allWords_of_mem_segments hwords hw)
  have hbalanced : ∀ s ∈ p.segments.map joinWords, isBalanced s = true := by
    intro s hs
    obtain ⟨words, hwords, rfl⟩ := List.mem_map.1 hs
    exact isBalanced_join (by decide) fun w hw => (hsegments words hwords w hw).balanced
  have hwords : ∀ words ∈ p.segments, nonemptyParts isMark (joinWords words) = words :=
    fun words hwords => nonemptyParts_join_of_onlyInBraces hmark
      (List.forall_mem_singleton.2 rfl) (List.cons_ne_nil _ _) fun w hw =>
        have hw := hsegments words hwords w hw
        ⟨hw.balanced, hw.onlyInBraces_isMark, hw.ne_nil⟩
  rw [toText_eq_join fun w hw => (h w hw).ne_nil,
    nonemptyParts_join hmark (List.all_eq_true.1 rfl) (by decide) hbalanced, List.flatMap_map]
  calc p.segments.flatMap (fun words => nonemptyParts isMark (joinWords words))
      = p.segments.flatMap id := List.flatMap_congr hwords
    _ = p.segments.flatten := List.flatMap_id

/-- White space around a name does not change its person. -/
theorem ofText?_trim {name : Text} (hname : isBalanced name = true) :
    ofText? name.trim = ofText? name := by
  rw [ofText?_eq_ofWords? (isBalanced_trim hname), segmentWords_trim hname,
    ofText?_eq_ofWords? hname]

/-- A blank name is that of nobody. -/
theorem ofText?_of_isBlank {name : Text} (h : name.isBlank = true) : ofText? name = some {} := by
  have htrim : name.trim = [] := by
    have hstart : Text.trimStart name = [] := List.dropWhile_eq_nil_iff.2 (List.all_eq_true.1 h)
    rw [Text.trim, hstart]
    rfl
  rw [ofText?]
  exact if_pos htrim

/-- A person that can stand in a name list: somebody, read from a balanced name, written so that the
same person is read again, and without a word that could be taken for the one between names. -/
structure Listable (p : Person) : Prop where
  somebody : p.isEmpty = false
  read : ∃ name, isBalanced name = true ∧ ofText? name = some p
  reread : ofText? p.toText = some p
  no_and : ∀ w ∈ p.allWords, Text.sameIgnoringAsciiCase w "and".toList = false

namespace Listable

variable {p : Person} (hp : p.Listable)
include hp

theorem isWord : ∀ w ∈ p.allWords, IsWord w := by
  obtain ⟨name, hname, hread⟩ := hp.read
  exact isWord_of_ofText? hname hread

theorem isBalanced_toText : isBalanced p.toText = true :=
  Balanced.toText fun w hw => (hp.isWord w hw).balanced

theorem not_isBlank_toText : ¬ p.toText.isBlank = true := by
  intro hblank
  have hnobody := hp.reread
  rw [ofText?_of_isBlank hblank, Option.some.injEq] at hnobody
  have hsomebody := hp.somebody
  rw [← hnobody] at hsomebody
  cases hsomebody

theorem toText_ne_nil : p.toText ≠ [] := fun hnil => hp.not_isBlank_toText (by rw [hnil]; rfl)

/-- No separator begins inside the name. -/
theorem unseparated_toText : Unseparated " and ".toList p.toText := by
  refine unseparated_of_no_word fun w hw => ?_
  rw [nonemptyParts_toText hp.isWord] at hw
  obtain ⟨words, hwords, hw⟩ := List.mem_flatten.1 hw
  exact hp.no_and w (mem_allWords_of_mem_segments hwords hw)

end Listable

def nameList (persons : List Person) : Text := Text.join " and ".toList (persons.map toText)

/-- **A name list has the names of its persons.** -/
theorem splitNameList_nameList {persons : List Person} (hne : persons ≠ [])
    (h : ∀ p ∈ persons, p.Listable) :
    splitNameList (nameList persons) = persons.map fun p => p.toText.trim := by
  have hblank : ¬ (nameList persons).isBlank = true := by
    obtain ⟨p, others, rfl⟩ := List.exists_cons_of_ne_nil hne
    have hp := (h p List.mem_cons_self).not_isBlank_toText
    intro hblank
    cases others with
    | nil => exact hp hblank
    | cons q others =>
      rw [nameList, List.map_cons, List.map_cons, join_cons_cons, Text.isBlank, List.all_append,
        List.all_append, Bool.and_eq_true, Bool.and_eq_true] at hblank
      exact hp hblank.1.1
  rw [splitNameList, if_neg hblank, nameList,
    splitText_join (isBrace_eq_false_of_all (by decide)) (by decide) (by simpa using hne) ?_,
    List.map_map]
  · rfl
  · intro d hd
    obtain ⟨p, hp, rfl⟩ := List.mem_map.1 hd
    have hp := h p hp
    exact ⟨hp.isBalanced_toText, hp.toText_ne_nil, hp.unseparated_toText⟩

/-- **The persons of a name list are read from it again.** -/
theorem map_ofText?_splitNameList_nameList {persons : List Person} (hne : persons ≠ [])
    (h : ∀ p ∈ persons, p.Listable) :
    (splitNameList (nameList persons)).map ofText? = persons.map some := by
  rw [splitNameList_nameList hne h, List.map_map]
  refine List.map_congr_left fun p hp => ?_
  have hp := h p hp
  rw [Function.comp_apply, ofText?_trim hp.isBalanced_toText, hp.reread]

end Person

/-- Persons stand in for a field that an entry does not have. -/
theorem Database.field_of_personsOf (d : Database) {e : Entry} {role : Text}
    (hfield : e.field? role = none) (hne : e.personsOf role ≠ []) :
    d.field e role = .present (Person.nameList (e.personsOf role)) := by
  have hown : e.ownValue? role = some (Person.nameList (e.personsOf role)) := by
    rw [Entry.ownValue?, hfield]
    dsimp only
    cases hpersons : e.personsOf role with
    | nil => exact absurd hpersons hne
    | cons p persons => rfl
  rw [Database.field, hown]

namespace Style

/-! ## Names on the stack -/

/-- A name of a name list is printed as its person is. -/
theorem formatName_of_ofText? {name : Text} {p : Person} (h : Person.ofText? name = some p)
    (pattern : Text) : formatName name pattern =
      match NameFormat.ofPattern pattern with
      | .ok format => .ok (format.formatLatex p)
      | .error fault => .error (.invalidNameFormat pattern fault) := by
  rw [formatName, Person.read, h]
  cases NameFormat.ofPattern pattern <;> rfl

open Run in
/-- The number of names of the list on top of the stack. -/
theorem run_numNames (call : Text → Run Unit) (turns : Nat)
    (s : Scene) {m : Machine} {names : Text} {below : List Value}
    (hstack : m.stack = .string names :: below) :
    runBuiltin call turns .numNames s m =
      .done () { m with stack := .integer (Tex.splitNameList names).length :: below } := by
  simp [runBuiltin, transform, popString, pop, hstack]

open Run in
/-- What becomes of a name list, a number and a pattern on top of the stack, the pattern first. -/
theorem run_formatName_eq (call : Text → Run Unit) (turns : Nat)
    (s : Scene) {m : Machine} {names pattern : Text} {index : Int} {below : List Value}
    (hstack : m.stack = .string pattern :: .integer index :: .string names :: below) :
    runBuiltin call turns .formatName s m =
      match nameAt? (Tex.splitNameList names) index with
      | none => .failed (.invalidArgument s.activeName
          (.noSuchName index names (Tex.splitNameList names).length)) { m with stack := below }
      | some name =>
        match formatName name pattern with
        | .ok printed => .done () { m with stack := .string printed :: below }
        | .error fault => .failed fault { m with stack := below } := by
  simp only [runBuiltin, once_eq, Run.formatName, popString, popInteger, pop, bind_apply,
    pure_apply, hstack, printName_eq]
  cases nameAt? (Tex.splitNameList names) index with
  | none => rfl
  | some name =>
    dsimp only
    cases formatName name pattern <;> rfl

open Run in
/-- A name of the list that stands below its number and a pattern, printed by the pattern. -/
theorem run_formatName (call : Text → Run Unit) (turns : Nat)
    (s : Scene) {m : Machine} {names pattern : Text} {i : Nat} {below : List Value}
    (hstack : m.stack = .string pattern :: .integer (i + 1) :: .string names :: below) {name : Text}
    (hname : (Tex.splitNameList names)[i]? = some name) :
    runBuiltin call turns .formatName s m =
      match formatName name pattern with
      | .ok printed => .done () { m with stack := .string printed :: below }
      | .error fault => .failed fault { m with stack := below } := by
  have hat : nameAt? (Tex.splitNameList names) (i + 1) = some name := by
    rw [nameAt?, if_pos (by omega)]
    simpa using hname
  rw [run_formatName_eq call turns s hstack, hat]

end Style

open Style in
/-- **Persons that stand in for a field are the names of its value.** The value is a name list with
one name for each person, which is read as that person; so `num.names$` gives their number, and
`format.name$` prints the person with the given number. -/
theorem splitNameList_of_personsOf (d : Database) {e : Entry} {role : Text}
    (hfield : e.field? role = none) {persons : List Person} (hpersons : e.personsOf role = persons)
    (hne : persons ≠ []) (h : ∀ p ∈ persons, p.Listable) :
    ∃ value, d.field e role = .present value ∧
      (Tex.splitNameList value).map Person.ofText? = persons.map some ∧
      ∀ (call : Text → Run Unit) turns s, (∀ m below, m.stack = .string value :: below →
          runBuiltin call turns .numNames s m =
            .done () { m with stack := .integer persons.length :: below }) ∧
        ∀ (i : Nat) (p : Person), persons[i]? = some p → ∀ m pattern below,
          m.stack = .string pattern :: .integer (i + 1) :: .string value :: below →
          runBuiltin call turns .formatName s m =
            match NameFormat.ofPattern pattern with
            | .ok format => .done () { m with stack := .string (format.formatLatex p) :: below }
            | .error fault =>
              .failed (.invalidNameFormat pattern fault) { m with stack := below } := by
  subst hpersons
  have hread := Person.map_ofText?_splitNameList_nameList hne h
  refine ⟨Person.nameList (e.personsOf role), d.field_of_personsOf hfield hne, hread,
    fun call turns s => ⟨fun m below hstack => ?_, ?_⟩⟩
  · have hlength := congrArg List.length hread
    rw [List.length_map, List.length_map] at hlength
    rw [run_numNames call turns s hstack, hlength]
  · intro i p hp m pattern below hstack
    have hi := congrArg (fun names => names[i]?) hread
    simp only [List.getElem?_map, hp, Option.map_some] at hi
    obtain ⟨name, hname, hperson⟩ := Option.map_eq_some_iff.1 hi
    rw [run_formatName call turns s hstack hname, formatName_of_ofText? hperson]
    cases NameFormat.ofPattern pattern <;> rfl

/-! ### An entry with persons and no field -/

/-- Persons whose names end with a comma, hold the word between names in braces, begin with it. -/
def coauthors : List Person :=
  [{ last := ["Dixit".toList], lineage := ["Jr".toList] },
    { last := ["\x7bBarnes and Noble\x7d".toList] },
    { first := ["Andy".toList], last := ["Anderson".toList] }]

theorem listable_coauthors : ∀ p ∈ coauthors, p.Listable := by
  rw [coauthors, List.forall_mem_cons, List.forall_mem_cons, List.forall_mem_singleton]
  refine ⟨?_, ?_, ?_⟩
  · exact ⟨rfl, ⟨"Dixit, Jr,".toList, by decide, by decide +kernel⟩, by decide +kernel, by decide⟩
  · exact ⟨rfl, ⟨"\x7bBarnes and Noble\x7d".toList, by decide, by decide +kernel⟩,
      by decide +kernel, by decide⟩
  · exact ⟨rfl, ⟨"Andy Anderson".toList, by decide, by decide +kernel⟩, by decide +kernel,
      by decide⟩

def coauthored : Entry :=
  coauthors.foldl (·.addPerson "author".toList ·) (Entry.empty "k".toList "book".toList)

/-- Three coauthors, and the list that stands in for the field that the book does not have. -/
theorem splitNameList_of_coauthored :
    coauthored.field? "author".toList = none ∧ coauthored.personsOf "author".toList = coauthors ∧
      coauthors ≠ [] ∧ (∀ p ∈ coauthors, p.Listable) ∧
      ∃ value, Database.empty.field coauthored "author".toList = .present value ∧
        (Tex.splitNameList value).map Person.ofText? = coauthors.map some := by
  have hfield : coauthored.field? "author".toList = none := by decide +kernel
  have hpersons : coauthored.personsOf "author".toList = coauthors := by decide +kernel
  obtain ⟨value, hvalue, hread, -⟩ := splitNameList_of_personsOf Database.empty hfield hpersons
    (List.cons_ne_nil _ _) listable_coauthors
  exact ⟨hfield, hpersons, List.cons_ne_nil _ _, listable_coauthors, value, hvalue, hread⟩

end Bibliography
