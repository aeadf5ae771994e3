import Mathlib.Data.List.Forall2
import Bibliography.Proofs.NameFormat.Balance
import Bibliography.Proofs.Unicode.Folding

set_option autoImplicit false

/-! # The grammar of name formats

A pattern is a row of pieces. A piece is a literal, which has no braces, or a group in braces: text
without letters (`IsVerbatim`), one letter or the same letter twice, perhaps a delimiter in braces,
and again text without letters. The trees of this file (`GroupTree`, `Piece`) are patterns taken
apart in this way, and `Piece.Denotes` says which element of a format a piece stands for.

Two things are left open by that: a literal could be two, and a braced string behind the letters
could be the delimiter or the start of what follows it. A derivation (`Derives`) settles both: a
literal goes up to the next brace, and a braced string directly behind the letters is the delimiter.
So a pattern has one derivation if it has a row of pieces at all.

The functions that read a pattern are opened once, on what each of them accepts; all else is about
trees.

Main statement: `ofPattern_follows_grammar`.
-/

namespace Bibliography

open Tex

def NamePart.letters : NamePart → List Char
  | .given => ['f', 'F']
  | .prelast => ['v', 'V']
  | .last => ['l', 'L']
  | .lineage => ['j', 'J']

namespace NameFormat

/-! ## Trees -/

/-- A text that can stand before and behind the letters of a group: it has no letters and no braces,
except that balanced texts in braces may stand in it. -/
inductive IsVerbatim : Text → Prop where
  | nil : IsVerbatim []
  | char {c : Char} {s : Text} (hletter : c.isAlpha = false) (hbrace : isBrace c = false)
      (hs : IsVerbatim s) : IsVerbatim (c :: s)
  | braced {inside s : Text} (hinside : isBalanced inside = true) (hs : IsVerbatim s) :
      IsVerbatim ('{' :: (inside ++ '}' :: s))

/-- A group as it is written between its braces. -/
structure GroupTree where
  before : Text
  letters : Text
  /-- What stands in the braces of the delimiter, if there is one. -/
  delimiter : Option Text
  after : Text
  deriving DecidableEq, Repr

def delimiterText : Option Text → Text
  | some d => '{' :: (d ++ ['}'])
  | none => []

namespace GroupTree

def text (t : GroupTree) : Text :=
  t.before ++ (t.letters ++ (delimiterText t.delimiter ++ t.after))

/-- The parts of the group are what the grammar asks for. -/
structure IsGrammatical (t : GroupTree) : Prop where
  before : IsVerbatim t.before
  letters : ∃ part : NamePart, ∃ c ∈ part.letters, t.letters = [c] ∨ t.letters = [c, c]
  delimiter : ∀ d ∈ t.delimiter, isBalanced d = true
  after : IsVerbatim t.after

/-- A braced string directly behind the letters is the delimiter. -/
def IsDirect (t : GroupTree) : Prop := t.delimiter = none → t.after.head? ≠ some '{'

/-- What the group stands for: one letter abbreviates the part, and the ties at the end are no text
of it. -/
structure Denotes (t : GroupTree) (g : NameGroup) : Prop where
  before : g.before = t.before
  letters : ∃ c ∈ g.part.letters, t.letters = if g.abbreviated then [c] else [c, c]
  delimiter : g.delimiter = t.delimiter
  after : ∃ ties, t.after = g.after ++ List.replicate ties '~' ∧
    g.after.getLast? ≠ some '~' ∧ g.tie = tieOfCount ties

end GroupTree

/-- A piece of a pattern. -/
inductive Piece where
  | literal (s : Text)
  | group (t : GroupTree)
  deriving DecidableEq, Repr

namespace Piece

/-- A piece as it is written. -/
def text : Piece → Text
  | .literal s => s
  | .group t => '{' :: (t.text ++ ['}'])

/-- The piece is what the grammar asks for. -/
def IsGrammatical : Piece → Prop
  | .literal s => ∀ c ∈ s, isBrace c = false
  | .group t => t.IsGrammatical

/-- What the piece stands for. -/
def Denotes : Piece → NameElement → Prop
  | .literal s, .literal s' => s' = s
  | .group t, .group g => t.Denotes g
  | _, _ => False

end Piece

/-- A pattern and the row of its pieces. -/
inductive Derives : Text → List Piece → Prop where
  | nil : Derives [] []
  | literal {s rest : Text} {row : List Piece} (hne : s ≠ []) (hs : ∀ c ∈ s, isBrace c = false)
      (hnext : ∀ c ∈ rest.head?, isBrace c = true) (h : Derives rest row) :
      Derives (s ++ rest) (.literal s :: row)
  | group {t : GroupTree} {rest : Text} {row : List Piece} (ht : t.IsGrammatical)
      (hdirect : t.IsDirect) (h : Derives rest row) :
      Derives ('{' :: (t.text ++ '}' :: rest)) (.group t :: row)

/-! ## Runs of characters -/

/-- A run of characters that goes as far as it can is cut off whole. -/
theorem cut_append {p : Char → Bool} {s rest : Text} (hs : ∀ c ∈ s, p c = true)
    (hrest : ∀ c ∈ rest.head?, p c = false) :
    (s ++ rest).takeWhile p = s ∧ (s ++ rest).dropWhile p = rest := by
  rw [List.takeWhile_append_of_pos hs, List.dropWhile_append_of_pos hs]
  cases rest with
  | nil => exact ⟨List.append_nil s, rfl⟩
  | cons c rest =>
    have hc : ¬ p c = true := by simp [hrest c rfl]
    rw [List.takeWhile_cons_of_neg hc, List.dropWhile_cons_of_neg hc, List.append_nil]
    exact ⟨rfl, rfl⟩

/-- A literal goes up to the next brace. -/
theorem cut_literal {s rest : Text} (hs : ∀ c ∈ s, isBrace c = false)
    (hnext : ∀ c ∈ rest.head?, isBrace c = true) :
    (s ++ rest).takeWhile (!isBrace ·) = s ∧ (s ++ rest).dropWhile (!isBrace ·) = rest := by
  refine cut_append (fun c hc => ?_) (fun c hc => ?_)
  · rw [hs c hc, Bool.not_false]
  · rw [hnext c hc, Bool.not_true]

/-! ## Braced strings -/

theorem append_of_takeBraced {level : Nat} {s taken rest : Text}
    (h : takeBraced level s = .ok (taken, rest)) : s = taken ++ rest := by
  induction s generalizing level taken with
  | nil => cases h
  | cons c s ih =>
    rw [takeBraced] at h
    split at h
    · cases h
      rfl
    · split at h
      · cases h
      · next taken rest heq =>
        cases h
        rw [ih heq, List.cons_append]

/-- A character inside a braced string does not end it. -/
theorem not_ends_of_openAfter? {level : Nat} {c : Char} {inside : Text}
    (h : openAfter? level (c :: inside) = some 0) : c = '}' → level ≠ 0 := by
  rintro rfl rfl
  cases h

theorem takeBraced_of_openAfter? {level : Nat} {inside : Text}
    (h : openAfter? level inside = some 0) (rest : Text) :
    takeBraced (level + 1) (inside ++ '}' :: rest) = .ok (inside ++ ['}'], rest) := by
  induction inside generalizing level with
  | nil =>
    cases h
    rfl
  | cons c inside ih =>
    have hends := not_ends_of_openAfter? h
    obtain ⟨hopen, hlevel⟩ := openAfter?_cons_of level c hends inside
    have hgoes : ¬ (c = '}' ∧ level + 1 ≤ 1) := fun ⟨hc, hle⟩ => hends hc (by omega)
    rw [List.cons_append, takeBraced, if_neg hgoes, hlevel, ih (hopen ▸ h)]
    rfl

/-- A braced string is read up to the brace that closes it. -/
theorem takeBraced_eq_ok_iff {s taken rest : Text} :
    takeBraced 1 s = .ok (taken, rest) ↔
      ∃ inside, taken = inside ++ ['}'] ∧ isBalanced inside = true ∧
        s = inside ++ '}' :: rest := by
  constructor
  · intro h
    have hlevel : takeBraced (0 + 1) s = .ok (taken, rest) := h
    obtain ⟨inside, rfl, hinside⟩ := closes_of_takeBraced hlevel
    refine ⟨inside, rfl, (isBalanced_iff inside).2 hinside, ?_⟩
    rw [append_of_takeBraced h, List.append_assoc, List.singleton_append]
  · rintro ⟨inside, rfl, hinside, rfl⟩
    exact takeBraced_of_openAfter? ((isBalanced_iff inside).1 hinside) rest

/-! ## Text around the letters -/

/-- Inside a braced string, text is taken up to the brace that closes it and then as outside. -/
theorem takeVerbatim_of_openAfter? {level : Nat} {inside : Text}
    (h : openAfter? level inside = some 0) {s taken rest : Text}
    (hs : takeVerbatim 0 s = .ok (taken, rest)) :
    takeVerbatim (level + 1) (inside ++ '}' :: s) = .ok (inside ++ '}' :: taken, rest) := by
  induction inside generalizing level with
  | nil =>
    cases h
    have hlevel : openAfter (0 + 1) '}' = 0 := rfl
    rw [List.nil_append, takeVerbatim, if_neg (by omega), hlevel, hs]
    rfl
  | cons c inside ih =>
    obtain ⟨hopen, hlevel⟩ := openAfter?_cons_of level c (not_ends_of_openAfter? h) inside
    rw [List.cons_append, takeVerbatim, if_neg (by omega), hlevel, ih (hopen ▸ h)]
    rfl

/-- What is taken inside a braced string goes on behind it. -/
theorem exists_of_takeVerbatim_succ {level : Nat} {s taken rest : Text}
    (h : takeVerbatim (level + 1) s = .ok (taken, rest)) :
    ∃ inside later more, openAfter? level inside = some 0 ∧ s = inside ++ '}' :: later ∧
      takeVerbatim 0 later = .ok (more, rest) ∧ taken = inside ++ '}' :: more := by
  induction s generalizing level taken with
  | nil => cases h
  | cons c s ih =>
    rw [takeVerbatim, if_neg (by omega)] at h
    split at h
    · cases h
    · next taken rest heq =>
      cases h
      -- the brace that closes the string is the only one that ends it
      by_cases hends : c = '}' ∧ level = 0
      · obtain ⟨rfl, rfl⟩ := hends
        exact ⟨[], s, taken, rfl, rfl, heq, rfl⟩
      · obtain ⟨-, hlevel⟩ := openAfter?_cons_of level c (fun hc hl => hends ⟨hc, hl⟩) []
        rw [hlevel] at heq
        obtain ⟨inside, later, more, hinside, rfl, hlater, rfl⟩ := ih heq
        refine ⟨c :: inside, later, more, ?_, rfl, hlater, rfl⟩
        rw [(openAfter?_cons_of level c (fun hc hl => hends ⟨hc, hl⟩) inside).1, hinside]

/-- What is taken as text without letters is such a text. -/
theorem isVerbatim_of_takeVerbatim {s taken rest : Text}
    (h : takeVerbatim 0 s = .ok (taken, rest)) : IsVerbatim taken ∧ s = taken ++ rest := by
  -- a braced string is taken at once, so what is left is shorter but no tail
  induction hn : s.length using Nat.strongRecOn generalizing s taken with
  | ind n ih =>
    subst hn
    cases s with
    | nil =>
      cases h
      exact ⟨.nil, rfl⟩
    | cons c s =>
      rw [takeVerbatim] at h
      split at h
      · cases h
        exact ⟨.nil, rfl⟩
      · next hgoes =>
        have hgoes : c ≠ '}' ∧ c.isAlpha = false := by simpa using hgoes
        split at h
        · cases h
        · next taken rest heq =>
          cases h
          by_cases hopen : c = '{'
          · subst hopen
            obtain ⟨inside, later, more, hinside, rfl, hlater, rfl⟩ :=
              exists_of_takeVerbatim_succ heq
            have hshorter : later.length < ('{' :: (inside ++ '}' :: later)).length := by
              simp only [List.length_cons, List.length_append]
              omega
            obtain ⟨hmore, rfl⟩ := ih _ hshorter hlater rfl
            refine ⟨.braced ((isBalanced_iff inside).2 hinside) hmore, ?_⟩
            simp only [List.cons_append, List.append_assoc]
          · have hbrace : isBrace c = false := isBrace_eq_false_iff.2 ⟨hopen, hgoes.1⟩
            rw [openAfter, if_neg hopen, if_neg hgoes.1] at heq
            obtain ⟨htaken, rfl⟩ := ih s.length (by simp) heq rfl
            exact ⟨.char hgoes.2 hbrace htaken, rfl⟩

/-- Text without letters is taken up to a letter or a closing brace. -/
theorem takeVerbatim_of_isVerbatim {s : Text} (hs : IsVerbatim s) {c : Char}
    (hc : c = '}' ∨ c.isAlpha = true) (rest : Text) :
    takeVerbatim 0 (s ++ c :: rest) = .ok (s, c :: rest) := by
  induction hs with
  | nil => rw [List.nil_append, takeVerbatim, if_pos ⟨rfl, hc⟩]
  | @char d s hletter hbrace _ ih =>
    have hd : d ≠ '{' ∧ d ≠ '}' := isBrace_eq_false_iff.1 hbrace
    have hgoes : ¬ ((0 : Nat) = 0 ∧ (d = '}' ∨ d.isAlpha = true)) := by simp [hd.2, hletter]
    rw [List.cons_append, takeVerbatim, if_neg hgoes, openAfter, if_neg hd.1, if_neg hd.2, ih]
  | @braced inside s hinside _ ih =>
    have hgoes : ¬ ((0 : Nat) = 0 ∧ ('{' = '}' ∨ '{'.isAlpha = true)) := by decide
    have hclosed := takeVerbatim_of_openAfter? ((isBalanced_iff inside).1 hinside) ih
    have hlevel : openAfter 0 '{' = 0 + 1 := rfl
    rw [List.cons_append, List.append_assoc, List.cons_append, takeVerbatim, if_neg hgoes, hlevel,
      hclosed]

/-- Text without letters closes the braces that it opens. -/
theorem IsVerbatim.isBalanced {s : Text} (hs : IsVerbatim s) : isBalanced s = true :=
  isBalanced_of_takeVerbatim (takeVerbatim_of_isVerbatim hs (Or.inl rfl) [])

/-- Text without letters starts with none, and with no closing brace. -/
theorem IsVerbatim.head?_append {s rest : Text} (hs : IsVerbatim s)
    (hrest : ∀ c ∈ rest.head?, c.isAlpha = false) : ∀ c ∈ (s ++ rest).head?, c.isAlpha = false := by
  cases hs with
  | nil => exact hrest
  | char hletter _ _ =>
    rintro c ⟨⟩
    exact hletter
  | braced _ _ =>
    rintro c ⟨⟩
    rfl

/-! ## Letters -/

theorem eq_or_eq_of_toLower_eq {c lower upper : Char} (hcode : upper.toNat + 32 = lower.toNat)
    (h : c.toLower = lower) : c = lower ∨ c = upper := by
  cases hc : c.isUpper with
  | true =>
    have hlower : c.toLower.toNat = c.toNat + 32 := Unicode.toNat_toLower hc
    rw [h] at hlower
    exact Or.inr (Char.toNat_inj.1 (by omega))
  | false => exact Or.inl ((Unicode.toLower_of_isUpper_eq_false hc).symm.trans h)

theorem partOfLetter?_eq_some_iff {c : Char} {part : NamePart} :
    partOfLetter? c = some part ↔ c ∈ part.letters := by
  have hmem : ∀ {lower upper : Char}, upper.toNat + 32 = lower.toNat → c.toLower = lower →
      c ∈ [lower, upper] := by
    intro lower upper hcode hc
    simpa using eq_or_eq_of_toLower_eq hcode hc
  constructor
  · intro h
    unfold partOfLetter? at h
    split at h
    case h_5 => cases h
    all_goals
      next hc =>
        cases h
        exact hmem rfl hc
  · intro h
    cases part
    all_goals
      simp only [NamePart.letters, List.mem_cons, List.not_mem_nil, or_false] at h
      rcases h with rfl | rfl <;> rfl

theorem isAlpha_of_mem_letters {c : Char} {part : NamePart} (h : c ∈ part.letters) :
    c.isAlpha = true := by
  cases part
  all_goals
    simp only [NamePart.letters, List.mem_cons, List.not_mem_nil, or_false] at h
    rcases h with rfl | rfl <;> rfl

/-- One letter abbreviates a part, the same letter twice prints it in full. -/
theorem partOfLetters_eq_ok_iff {letters : Text} {part : NamePart} {abbreviated : Bool} :
    partOfLetters letters = .ok (part, abbreviated) ↔
      ∃ c ∈ part.letters, letters = if abbreviated then [c] else [c, c] := by
  constructor
  · intro h
    unfold partOfLetters at h
    split at h
    · cases h
    · next c =>
      dsimp only at h
      split at h
      · next hc =>
        cases h
        exact ⟨c, partOfLetter?_eq_some_iff.1 hc, rfl⟩
      · cases h
    · next c d =>
      split at h
      · next hcd =>
        dsimp only at h
        split at h
        · next hc =>
          cases h
          exact ⟨c, partOfLetter?_eq_some_iff.1 hc, by rw [← hcd]; rfl⟩
        · cases h
      · cases h
    · cases h
  · rintro ⟨c, hc, rfl⟩
    rw [← partOfLetter?_eq_some_iff] at hc
    cases abbreviated with
    | true => simp [partOfLetters, hc]
    | false => simp [partOfLetters, hc]

/-! ## Delimiters -/

theorem takeDelimiter_eq_ok_iff {s rest : Text} {delimiter : Option Text} :
    takeDelimiter s = .ok (delimiter, rest) ↔
      (∀ d ∈ delimiter, isBalanced d = true) ∧ s = delimiterText delimiter ++ rest ∧
        (delimiter = none → rest.head? ≠ some '{') := by
  constructor
  · intro h
    unfold takeDelimiter at h
    split at h
    · split at h
      · cases h
      · next taken rest heq =>
        obtain ⟨inside, rfl, hinside, rfl⟩ := takeBraced_eq_ok_iff.1 heq
        cases h
        rw [List.dropLast_concat]
        refine ⟨?_, ?_, ?_⟩
        · rintro d ⟨⟩
          exact hinside
        · rw [delimiterText, List.cons_append, List.append_assoc, List.singleton_append]
        · rintro ⟨⟩
    · next hopen =>
      cases h
      refine ⟨by rintro d ⟨⟩, rfl, fun _ hhead => ?_⟩
      obtain ⟨rest, rfl⟩ := List.head?_eq_some_iff.1 hhead
      exact hopen rest rfl
  · rintro ⟨hbalanced, rfl, hnone⟩
    cases delimiter with
    | none =>
      have hrest : rest.head? ≠ some '{' := hnone rfl
      show takeDelimiter rest = _
      unfold takeDelimiter
      split
      · exact absurd rfl hrest
      · rfl
    | some d =>
      have hread : takeBraced 1 (d ++ '}' :: rest) = .ok (d ++ ['}'], rest) :=
        takeBraced_eq_ok_iff.2 ⟨d, rfl, hbalanced d rfl, rfl⟩
      rw [delimiterText, List.cons_append, List.append_assoc, List.singleton_append,
        takeDelimiter, hread]
      simp only [List.dropLast_concat]

/-! ## Groups -/

/-- The ties at the end of a text, of which none is left before them. -/
theorem trailingTies_append {body : Text} (hbody : body.getLast? ≠ some '~') (ties : Nat) :
    trailingTies (body ++ List.replicate ties '~') = ties := by
  have hhead : body.reverse.takeWhile (· == '~') = [] := by
    cases hrev : body.reverse with
    | nil => rfl
    | cons c rest =>
      have hc : ¬ (c == '~') = true := by
        intro hc
        rw [← List.head?_reverse, hrev, List.head?_cons, eq_of_beq hc] at hbody
        exact hbody rfl
      exact List.takeWhile_cons_of_neg hc
  rw [trailingTies, List.reverse_append, List.reverse_replicate,
    List.takeWhile_append_of_pos (by simp), hhead, List.append_nil, List.length_replicate]

namespace GroupTree

variable {t : GroupTree}

theorem IsGrammatical.isAlpha_letters (ht : t.IsGrammatical) :
    ∀ c ∈ t.letters, c.isAlpha = true := by
  obtain ⟨part, c, hc, hletters | hletters⟩ := ht.letters
  all_goals
    rw [hletters]
    simp [isAlpha_of_mem_letters hc]

/-! What each reader takes of a group that is written with its closing brace. -/

theorem text_append (t : GroupTree) (rest : Text) :
    t.text ++ '}' :: rest =
      t.before ++ (t.letters ++ (delimiterText t.delimiter ++ (t.after ++ '}' :: rest))) := by
  simp only [text, List.append_assoc]

theorem IsGrammatical.takeVerbatim_text (ht : t.IsGrammatical) (rest : Text) :
    takeVerbatim 0 (t.text ++ '}' :: rest) =
      .ok (t.before, t.letters ++ (delimiterText t.delimiter ++ (t.after ++ '}' :: rest))) := by
  have hletters := ht.isAlpha_letters
  have hne : t.letters ≠ [] := by
    obtain ⟨part, c, hc, hletters | hletters⟩ := ht.letters <;> simp [hletters]
  obtain ⟨c, letters, hcons⟩ := List.exists_cons_of_ne_nil hne
  rw [text_append, hcons]
  exact takeVerbatim_of_isVerbatim ht.before (Or.inr (hletters c (by simp [hcons]))) _

theorem IsGrammatical.takeWhile_text (ht : t.IsGrammatical) (rest : Text) :
    (t.letters ++ (delimiterText t.delimiter ++ (t.after ++ '}' :: rest))).takeWhile Char.isAlpha =
      t.letters := by
  refine (cut_append ht.isAlpha_letters ?_).1
  cases t.delimiter with
  | none =>
    refine ht.after.head?_append ?_
    rintro c ⟨⟩
    rfl
  | some d =>
    rintro c ⟨⟩
    rfl

theorem IsGrammatical.takeDelimiter_text (ht : t.IsGrammatical) (hdirect : t.IsDirect)
    (rest : Text) :
    takeDelimiter (delimiterText t.delimiter ++ (t.after ++ '}' :: rest)) =
      .ok (t.delimiter, t.after ++ '}' :: rest) := by
  refine takeDelimiter_eq_ok_iff.2 ⟨ht.delimiter, rfl, fun hnone => ?_⟩
  have hafter := hdirect hnone
  cases hs : t.after with
  | nil => simp
  | cons c after => simpa [hs] using hafter

theorem IsGrammatical.takeVerbatim_after (ht : t.IsGrammatical) (rest : Text) :
    takeVerbatim 0 (t.after ++ '}' :: rest) = .ok (t.after, '}' :: rest) :=
  takeVerbatim_of_isVerbatim ht.after (Or.inl rfl) rest

/-- **A group is read exactly when it is the text of a tree, as what the tree stands for.** -/
theorem takeGroup_eq_ok_iff {s rest : Text} {g : NameGroup} :
    takeGroup s = .ok (g, rest) ↔
      ∃ t : GroupTree, t.IsGrammatical ∧ t.IsDirect ∧ t.Denotes g ∧ s = t.text ++ '}' :: rest := by
  constructor
  · intro h
    -- the tree is made of what the readers took, one part from each
    obtain ⟨letters, delimited, after, hbefore, hpart, hdelimiter, hafter, htaken, htie⟩ :=
      exists_of_takeGroup h
    obtain ⟨c, hc, hletters⟩ := partOfLetters_eq_ok_iff.1 hpart
    obtain ⟨hbalanced, hdrop, hdirect⟩ := takeDelimiter_eq_ok_iff.1 hdelimiter
    obtain ⟨hverbatim, rfl⟩ := isVerbatim_of_takeVerbatim hbefore
    obtain ⟨hverbatim', rfl⟩ := isVerbatim_of_takeVerbatim hafter
    obtain ⟨body, hbody, hlast, htake⟩ := exists_of_trailingTies after
    refine ⟨⟨g.before, letters.takeWhile Char.isAlpha, g.delimiter, after⟩,
      ⟨hverbatim, ⟨g.part, c, hc, ?_⟩, hbalanced, hverbatim'⟩, fun hnone hhead => ?_,
      ⟨rfl, ⟨c, hc, hletters⟩, rfl, ⟨trailingTies after, ?_, ?_, htie⟩⟩, ?_⟩
    · cases habbreviated : g.abbreviated <;> simp [hletters, habbreviated]
    · refine hdirect hnone ?_
      rw [List.head?_append, hhead, Option.some_or]
    · rw [htaken, htake]
      exact hbody
    · rw [htaken, htake]
      exact hlast
    · rw [text_append, ← hdrop]
      have hletters := List.prefix_iff_eq_take.1 (List.takeWhile_prefix Char.isAlpha (l := letters))
      nth_rewrite 2 [hletters]
      rw [List.take_append_drop]
  · rintro ⟨t, ht, hdirect, hg, rfl⟩
    have hpart : partOfLetters t.letters = .ok (g.part, g.abbreviated) :=
      partOfLetters_eq_ok_iff.2 hg.letters
    obtain ⟨ties, hafter, hlast, htie⟩ := hg.after
    have hties : trailingTies t.after = ties := by rw [hafter, trailingTies_append hlast]
    have htake : t.after.take (t.after.length - ties) = g.after := by
      rw [hafter, List.length_append, List.length_replicate, Nat.add_sub_cancel, List.take_left]
    simp only [takeGroup, ht.takeVerbatim_text, ht.takeWhile_text, hpart, List.drop_left,
      ht.takeDelimiter_text hdirect, ht.takeVerbatim_after, hties, htake, bind, Except.bind]
    simp [← hg.before, ← hg.delimiter, ← htie]

/-- A text is read as one tree only. -/
theorem eq_of_text_append_eq {t' : GroupTree} {rest rest' : Text} (ht : t.IsGrammatical)
    (hdirect : t.IsDirect) (ht' : t'.IsGrammatical) (hdirect' : t'.IsDirect)
    (h : t.text ++ '}' :: rest = t'.text ++ '}' :: rest') : t = t' ∧ rest = rest' := by
  -- the same reader reads both texts, so the trees agree part after part
  have hread := ht.takeVerbatim_text rest
  rw [h, ht'.takeVerbatim_text rest'] at hread
  obtain ⟨hbefore, hletters⟩ := Prod.mk.inj (Except.ok.inj hread)
  have hsame : t'.letters = t.letters := by
    rw [← ht'.takeWhile_text rest', hletters, ht.takeWhile_text rest]
  rw [hsame] at hletters
  have hread := ht.takeDelimiter_text hdirect rest
  rw [← List.append_cancel_left hletters, ht'.takeDelimiter_text hdirect' rest'] at hread
  obtain ⟨hdelimiter, hbehind⟩ := Prod.mk.inj (Except.ok.inj hread)
  have hread := ht.takeVerbatim_after rest
  rw [← hbehind, ht'.takeVerbatim_after rest'] at hread
  obtain ⟨hafter, hrest⟩ := Prod.mk.inj (Except.ok.inj hread)
  refine ⟨?_, (List.cons.inj hrest).2.symm⟩
  cases t
  cases t'
  simp_all

/-- Every tree stands for a group. -/
theorem IsGrammatical.exists_denotes (ht : t.IsGrammatical) : ∃ g, t.Denotes g := by
  obtain ⟨part, c, hc, hletters⟩ := ht.letters
  obtain ⟨body, hbody, hlast, -⟩ := exists_of_trailingTies t.after
  rcases hletters with hletters | hletters
  · exact ⟨⟨t.before, part, true, t.delimiter, body, tieOfCount _⟩, rfl, ⟨c, hc, hletters⟩, rfl,
      _, hbody, hlast, rfl⟩
  · exact ⟨⟨t.before, part, false, t.delimiter, body, tieOfCount _⟩, rfl, ⟨c, hc, hletters⟩, rfl,
      _, hbody, hlast, rfl⟩

/-- A braced string that stands directly behind the letters can be called the delimiter. -/
theorem IsGrammatical.exists_isDirect (ht : t.IsGrammatical) :
    ∃ t' : GroupTree, t'.IsGrammatical ∧ t'.IsDirect ∧ t'.text = t.text := by
  by_cases hdirect : t.IsDirect
  · exact ⟨t, ht, hdirect, rfl⟩
  · obtain ⟨hnone, hhead⟩ : t.delimiter = none ∧ t.after.head? = some '{' := by
      simpa [IsDirect] using hdirect
    have hafter := ht.after
    cases hs : t.after with
    | nil =>
      rw [hs] at hhead
      cases hhead
    | cons c s =>
      rw [hs] at hhead hafter
      cases hhead
      cases hafter with
      | char _ hbrace _ => cases hbrace
      | @braced inside s hinside hrest =>
        refine ⟨⟨t.before, t.letters, some inside, s⟩, ⟨ht.before, ht.letters, ?_, hrest⟩, ?_, ?_⟩
        · rintro d ⟨⟩
          exact hinside
        · rintro ⟨⟩
        · simp [text, hnone, hs, delimiterText]

theorem IsGrammatical.isBalanced_letters (ht : t.IsGrammatical) : isBalanced t.letters = true := by
  refine isBalanced_of_no_braces fun c hc => ?_
  have halpha := ht.isAlpha_letters c hc
  cases hbrace : isBrace c with
  | false => rfl
  | true =>
    simp only [isBrace, Bool.or_eq_true, beq_iff_eq] at hbrace
    rcases hbrace with rfl | rfl <;> cases halpha

theorem IsGrammatical.isBalanced_delimiterText (ht : t.IsGrammatical) :
    isBalanced (delimiterText t.delimiter) = true := by
  cases hd : t.delimiter with
  | none => rfl
  | some d => exact (IsVerbatim.braced (ht.delimiter d hd) .nil).isBalanced

theorem IsGrammatical.isBalanced_text (ht : t.IsGrammatical) : isBalanced t.text = true :=
  isBalanced_append ht.before.isBalanced (isBalanced_append ht.isBalanced_letters
    (isBalanced_append ht.isBalanced_delimiterText ht.after.isBalanced))

end GroupTree

/-! ## Pieces -/

theorem Piece.IsGrammatical.exists_denotes {piece : Piece} (h : piece.IsGrammatical) :
    ∃ e, piece.Denotes e := by
  cases piece with
  | literal s => exact ⟨.literal s, rfl⟩
  | group t =>
    obtain ⟨g, hg⟩ := GroupTree.IsGrammatical.exists_denotes h
    exact ⟨.group g, hg⟩

theorem Piece.IsGrammatical.isBalanced_text {piece : Piece} (h : piece.IsGrammatical) :
    isBalanced piece.text = true := by
  cases piece with
  | literal s => exact isBalanced_of_no_braces h
  | group t =>
    exact (IsVerbatim.braced (GroupTree.IsGrammatical.isBalanced_text h) .nil).isBalanced

/-! ## Patterns -/

theorem ofPattern_group {s rest : Text} {g : NameGroup} (h : takeGroup s = .ok (g, rest)) :
    ofPattern ('{' :: s) = (.group g :: ·) <$> ofPattern rest := by
  rw [ofPattern, if_pos rfl]
  split
  · next heq =>
    rw [h] at heq
    cases heq
  · next heq =>
    rw [h] at heq
    cases heq
    rfl

theorem ofPattern_literal {s rest : Text} (hne : s ≠ []) (hs : ∀ c ∈ s, isBrace c = false)
    (hnext : ∀ c ∈ rest.head?, isBrace c = true) :
    ofPattern (s ++ rest) = (.literal s :: ·) <$> ofPattern rest := by
  obtain ⟨c, s, rfl⟩ := List.exists_cons_of_ne_nil hne
  obtain ⟨hc, hs⟩ := List.forall_mem_cons.1 hs
  have hbrace : c ≠ '{' ∧ c ≠ '}' := isBrace_eq_false_iff.1 hc
  obtain ⟨htake, hdrop⟩ := cut_literal hs hnext
  rw [List.cons_append, ofPattern, if_neg hbrace.1, if_neg hbrace.2, htake, hdrop]

namespace Derives

variable {pattern : Text} {row : List Piece}

/-- The pieces of a derivation make up the pattern. -/
theorem pieces (h : Derives pattern row) :
    (∀ piece ∈ row, piece.IsGrammatical) ∧ row.flatMap Piece.text = pattern := by
  induction h with
  | nil => exact ⟨List.forall_mem_nil _, rfl⟩
  | literal _ hs _ _ ih =>
    refine ⟨List.forall_mem_cons.2 ⟨hs, ih.1⟩, ?_⟩
    rw [List.flatMap_cons, ih.2]
    rfl
  | group ht _ _ ih =>
    refine ⟨List.forall_mem_cons.2 ⟨ht, ih.1⟩, ?_⟩
    rw [List.flatMap_cons, ih.2]
    simp [Piece.text]

theorem isBalanced (h : Derives pattern row) : isBalanced pattern = true := by
  obtain ⟨hrow, rfl⟩ := h.pieces
  exact isBalanced_flatMap fun piece hpiece => (hrow piece hpiece).isBalanced_text

theorem exists_denotes (h : Derives pattern row) :
    ∃ f : NameFormat, List.Forall₂ Piece.Denotes row f := by
  have hrow := h.pieces.1
  clear h
  induction row with
  | nil => exact ⟨[], .nil⟩
  | cons piece row ih =>
    obtain ⟨hpiece, hrow⟩ := List.forall_mem_cons.1 hrow
    obtain ⟨e, he⟩ := hpiece.exists_denotes
    obtain ⟨f, hf⟩ := ih hrow
    exact ⟨e :: f, .cons he hf⟩

/-- A pattern is read along its derivation. -/
theorem ofPattern_eq (h : Derives pattern row) {f : NameFormat}
    (hf : List.Forall₂ Piece.Denotes row f) : ofPattern pattern = .ok f := by
  induction h generalizing f with
  | nil =>
    cases hf
    rw [ofPattern]
  | literal hne hs hnext _ ih =>
    cases hf with
    | @cons _ e _ f he hf =>
      cases e with
      | group g => cases he
      | literal s =>
        cases he
        rw [ofPattern_literal hne hs hnext, ih hf]
        rfl
  | group ht hdirect _ ih =>
    cases hf with
    | @cons _ e _ f he hf =>
      cases e with
      | literal s => cases he
      | group g =>
        rw [ofPattern_group (GroupTree.takeGroup_eq_ok_iff.2 ⟨_, ht, hdirect, he, rfl⟩), ih hf]
        rfl

theorem row_of_literal {s rest : Text} (hne : s ≠ []) (hs : ∀ c ∈ s, isBrace c = false)
    (hnext : ∀ c ∈ rest.head?, isBrace c = true) (h : Derives (s ++ rest) row) :
    ∃ row', row = .literal s :: row' ∧ Derives rest row' := by
  obtain ⟨htake, hdrop⟩ := cut_literal hs hnext
  generalize hpattern : s ++ rest = pattern at h htake hdrop
  -- both literals go up to the next brace, so they are the same
  cases h with
  | nil => exact absurd (List.append_eq_nil_iff.1 hpattern).1 hne
  | literal _ hs' hnext' hrest =>
    obtain ⟨htake', hdrop'⟩ := cut_literal hs' hnext'
    rw [htake'] at htake
    rw [hdrop'] at hdrop
    subst htake hdrop
    exact ⟨_, rfl, hrest⟩
  | group =>
    cases s with
    | nil => exact absurd rfl hne
    | cons c s =>
      have hc := hs c (List.mem_cons_self ..)
      rw [List.cons_append] at hpattern
      rw [(List.cons.inj hpattern).1] at hc
      cases hc

theorem row_of_group {t : GroupTree} {rest : Text} (ht : t.IsGrammatical) (hdirect : t.IsDirect)
    (h : Derives ('{' :: (t.text ++ '}' :: rest)) row) :
    ∃ row', row = .group t :: row' ∧ Derives rest row' := by
  generalize hpattern : '{' :: (t.text ++ '}' :: rest) = pattern at h
  cases h with
  | nil => cases hpattern
  | @literal s _ _ hne hs _ _ =>
    cases s with
    | nil => exact absurd rfl hne
    | cons c s =>
      have hc := hs c (List.mem_cons_self ..)
      rw [List.cons_append] at hpattern
      rw [← (List.cons.inj hpattern).1] at hc
      cases hc
  | group ht' hdirect' hrest =>
    obtain ⟨rfl, rfl⟩ :=
      GroupTree.eq_of_text_append_eq ht hdirect ht' hdirect' (List.cons.inj hpattern).2
    exact ⟨_, rfl, hrest⟩

/-- **A pattern has one derivation.** -/
theorem unique (h : Derives pattern row) {row' : List Piece} (h' : Derives pattern row') :
    row = row' := by
  induction h generalizing row' with
  | nil =>
    generalize hpattern : ([] : Text) = pattern at h'
    cases h' with
    | nil => rfl
    | literal hne => exact absurd (List.append_eq_nil_iff.1 hpattern.symm).1 hne
    | group => cases hpattern
  | literal hne hs hnext _ ih =>
    obtain ⟨row', rfl, hrest⟩ := h'.row_of_literal hne hs hnext
    rw [ih hrest]
  | group ht hdirect _ ih =>
    obtain ⟨row', rfl, hrest⟩ := h'.row_of_group ht hdirect
    rw [ih hrest]

/-- A literal before a pattern is part of its first literal, or a literal of its own. -/
theorem literal_append (h : Derives pattern row) {s : Text} (hs : ∀ c ∈ s, isBrace c = false) :
    ∃ row', Derives (s ++ pattern) row' := by
  by_cases hne : s = []
  · rw [hne]
    exact ⟨row, h⟩
  · cases h with
    | nil => exact ⟨_, .literal hne hs (by simp) .nil⟩
    | @literal s' rest row hne' hs' hnext hrest =>
      have hboth := Derives.literal (by simp [hne]) (List.forall_mem_append.2 ⟨hs, hs'⟩) hnext hrest
      rw [List.append_assoc] at hboth
      exact ⟨_, hboth⟩
    | group ht hdirect hrest =>
      exact ⟨_, .literal hne hs (by rintro c ⟨⟩; rfl) (.group ht hdirect hrest)⟩

/-- **Every row of pieces makes up a pattern that has a derivation.** -/
theorem exists_of_pieces (hrow : ∀ piece ∈ row, piece.IsGrammatical) :
    ∃ row', Derives (row.flatMap Piece.text) row' := by
  induction row with
  | nil => exact ⟨[], .nil⟩
  | cons piece row ih =>
    obtain ⟨hpiece, hrow⟩ := List.forall_mem_cons.1 hrow
    obtain ⟨row', hderives⟩ := ih hrow
    rw [List.flatMap_cons]
    cases piece with
    | literal s => exact hderives.literal_append hpiece
    | group t =>
      obtain ⟨t', ht', hdirect, htext⟩ := GroupTree.IsGrammatical.exists_isDirect hpiece
      refine ⟨.group t' :: row', ?_⟩
      have hgroup := Derives.group ht' hdirect hderives
      rw [htext] at hgroup
      simpa [Piece.text] using hgroup

/-- What is read is a derivation. -/
theorem exists_of_ofPattern {f : NameFormat} (h : ofPattern pattern = .ok f) :
    ∃ row, Derives pattern row ∧ List.Forall₂ Piece.Denotes row f := by
  -- a pattern goes on with a group, or with a literal up to the next brace
  fun_induction ofPattern pattern generalizing f with
  | case1 =>
    cases h
    exact ⟨[], .nil, .nil⟩
  | case2 rest e heq => cases h
  | case3 rest g after heq ih =>
    obtain ⟨f, hf, rfl⟩ := eq_cons_of_map_eq_ok h
    obtain ⟨row, hrow, hdenotes⟩ := ih hf
    obtain ⟨t, ht, hdirect, hg, rfl⟩ := GroupTree.takeGroup_eq_ok_iff.1 heq
    exact ⟨.group t :: row, .group ht hdirect hrow, .cons hg hdenotes⟩
  | case4 => cases h
  | case5 c rest hopen hclose ih =>
    obtain ⟨f, hf, rfl⟩ := eq_cons_of_map_eq_ok h
    obtain ⟨row, hrow, hdenotes⟩ := ih hf
    have hliteral : ∀ d ∈ c :: rest.takeWhile (!isBrace ·), isBrace d = false := by
      refine List.forall_mem_cons.2 ⟨isBrace_eq_false_iff.2 ⟨hopen, hclose⟩, fun d hd => ?_⟩
      simpa using List.all_eq_true.1 List.all_takeWhile d hd
    have hnext : ∀ d ∈ (rest.dropWhile (!isBrace ·)).head?, isBrace d = true := by
      intro d hd
      simpa using Text.eq_false_of_mem_head?_dropWhile hd
    have hderives := Derives.literal (List.cons_ne_nil _ _) hliteral hnext hrow
    rw [List.cons_append, List.takeWhile_append_dropWhile] at hderives
    exact ⟨.literal (c :: rest.takeWhile (!isBrace ·)) :: row, hderives, .cons rfl hdenotes⟩

end Derives

/-- **A pattern is accepted exactly when it is a row of pieces.** It then has one derivation, of
which the format has one element for each piece; and its braces are balanced. -/
theorem ofPattern_follows_grammar (pattern : Text) :
    ((∃ f, ofPattern pattern = .ok f) ↔
        ∃ row : List Piece, (∀ piece ∈ row, piece.IsGrammatical) ∧
          row.flatMap Piece.text = pattern) ∧
      (∀ f, ofPattern pattern = .ok f ↔
        ∃ row, Derives pattern row ∧ List.Forall₂ Piece.Denotes row f) ∧
      (∀ row row', Derives pattern row → Derives pattern row' → row = row') ∧
      ∀ f, ofPattern pattern = .ok f → checkBraces pattern = .ok () := by
  refine ⟨⟨?_, ?_⟩, fun f => ⟨Derives.exists_of_ofPattern, ?_⟩, fun row row' h => h.unique, ?_⟩
  · rintro ⟨f, hf⟩
    obtain ⟨row, hrow, -⟩ := Derives.exists_of_ofPattern hf
    exact ⟨row, hrow.pieces⟩
  · rintro ⟨row, hrow, rfl⟩
    obtain ⟨row', hrow'⟩ := Derives.exists_of_pieces hrow
    obtain ⟨f, hf⟩ := hrow'.exists_denotes
    exact ⟨f, hrow'.ofPattern_eq hf⟩
  · rintro ⟨row, hrow, hf⟩
    exact hrow.ofPattern_eq hf
  · intro f hf
    obtain ⟨row, hrow, -⟩ := Derives.exists_of_ofPattern hf
    rw [checkBraces, if_pos hrow.isBalanced]

/-- The pattern `{f{}.~} {ll}`: initials with nothing between them, and the last name. -/
theorem ofPattern_follows_grammar_initials :
    ofPattern "\x7bf\x7b\x7d.~\x7d \x7bll\x7d".toList =
        .ok [.group ⟨[], .given, true, some [], ['.'], .discretionary⟩, .literal [' '],
          .group ⟨[], .last, false, none, [], .absent⟩] ∧
      checkBraces "\x7bf\x7b\x7d.~\x7d \x7bll\x7d".toList = .ok () := by
  have hinitials : IsVerbatim ['.', '~'] := .char rfl rfl (.char rfl rfl .nil)
  have hgiven : (⟨[], ['f'], some [], ['.', '~']⟩ : GroupTree).IsGrammatical := by
    refine ⟨.nil, ⟨.given, 'f', by decide, Or.inl rfl⟩, ?_, hinitials⟩
    rintro d ⟨⟩
    rfl
  have hlast : (⟨[], ['l', 'l'], none, []⟩ : GroupTree).IsGrammatical :=
    ⟨.nil, ⟨.last, 'l', by decide, Or.inr rfl⟩, by rintro d ⟨⟩, .nil⟩
  have hderives : Derives "\x7bf\x7b\x7d.~\x7d \x7bll\x7d".toList
      [.group ⟨[], ['f'], some [], ['.', '~']⟩, .literal [' '],
        .group ⟨[], ['l', 'l'], none, []⟩] := by
    refine .group hgiven (by rintro ⟨⟩) (.literal (s := [' ']) (List.cons_ne_nil _ _)
      (List.forall_mem_singleton.2 rfl) ?_ (.group hlast (fun _ => by decide) .nil))
    rintro c ⟨⟩
    rfl
  obtain ⟨-, hreads, -, hbraces⟩ :=
    ofPattern_follows_grammar "\x7bf\x7b\x7d.~\x7d \x7bll\x7d".toList
  refine ⟨?hread, hbraces _ ?hread⟩
  refine (hreads _).2 ⟨_, hderives, .cons ?_ (.cons ?_ (.cons ?_ .nil))⟩
  · exact ⟨rfl, ⟨'f', by decide, rfl⟩, rfl, ⟨1, rfl, by decide, rfl⟩⟩
  · rfl
  · exact ⟨rfl, ⟨'l', by decide, rfl⟩, rfl, ⟨0, rfl, by decide, rfl⟩⟩

end NameFormat

end Bibliography
