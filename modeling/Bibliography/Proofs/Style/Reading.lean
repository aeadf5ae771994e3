import Bibliography.NameFormat.Reader
import Bibliography.Proofs.Style.Grammar
import Bibliography.Proofs.Text.Passing
import Bibliography.Proofs.Unicode.Folding

set_option autoImplicit false

/-! # What the reader of styles reads

The reader is related to the language of styles part by part: space, single tokens, rows in braces,
arguments and commands. For each part the reader goes from one cursor to another exactly when the
text between the two writes what the reader returns. The main theorem is `takeCommands_eq_ok_iff`:
the commands that are read are those that the text writes, each placed on its own text.
-/

namespace Bibliography.Style.Reader

open NameFormat (exists_of_bind_eq_ok)

variable {c d e : Cursor} {ch : Char}

/-! ## Space -/

/-- Space that starts inside a comment, or outside of one. -/
def SpaceFrom : Bool → Text → Prop
  | false, s => IsSpace s
  | true, s => ∃ words after, s = words ++ '\n' :: after ∧ '\n' ∉ words ∧ IsSpace after

theorem spaceFrom_cons {inComment : Bool} {s : Text}
    (hch : inComment = true ∨ isAsciiSpace ch = true ∨ ch = '%')
    (hs : SpaceFrom (if inComment then ch ≠ '\n' else ch = '%') s) :
    SpaceFrom inComment (ch :: s) := by
  cases inComment with
  | true =>
    by_cases hline : ch = '\n'
    · have hspace : SpaceFrom false s := by simpa [hline] using hs
      exact ⟨[], s, by rw [hline]; rfl, List.not_mem_nil, hspace⟩
    · obtain ⟨words, after, rfl, hwords, hspace⟩ : SpaceFrom true s := by simpa [hline] using hs
      exact ⟨ch :: words, after, rfl, by simp [Ne.symm hline, hwords], hspace⟩
  | false =>
    by_cases hpercent : ch = '%'
    · obtain ⟨words, after, rfl, hwords, hspace⟩ : SpaceFrom true s := by simpa [hpercent] using hs
      rw [hpercent]
      exact .comment hwords hspace
    · have hspace : SpaceFrom false s := by simpa [hpercent] using hs
      have hblank : isAsciiSpace ch = true := by simpa [hpercent] using hch
      exact .blank hblank hspace

theorem splitSpace_fst_append (s : Text) (inComment : Bool) :
    (splitSpace inComment s).1 ++ (splitSpace inComment s).2 = s := by
  induction s generalizing inComment with
  | nil => rfl
  | cons ch s ih =>
    rw [splitSpace]
    split
    · exact congrArg (ch :: ·) (ih _)
    · rfl

/-- What is cut off before something else is space. -/
theorem spaceFrom_splitSpace {s : Text} {inComment : Bool} (h : (splitSpace inComment s).2 ≠ []) :
    SpaceFrom inComment (splitSpace inComment s).1 := by
  induction s generalizing inComment with
  | nil => exact absurd rfl h
  | cons ch s ih =>
    rw [splitSpace] at h ⊢
    split
    · next hch =>
      rw [if_pos hch] at h
      exact spaceFrom_cons hch (ih h)
    · next hch =>
      obtain rfl : inComment = false := by simpa using fun hin => hch (Or.inl hin)
      exact .nil

theorem isSpace_splitSpace {s : Text} (h : (splitSpace false s).2 ≠ []) :
    IsSpace (splitSpace false s).1 :=
  spaceFrom_splitSpace h

/-- A text that is cut off whole is space once its last line is ended. -/
theorem spaceFrom_of_splitSpace_eq_nil {s : Text} {inComment : Bool}
    (h : (splitSpace inComment s).2 = []) : SpaceFrom inComment (s ++ ['\n']) := by
  induction s generalizing inComment with
  | nil =>
    cases inComment with
    | true => exact ⟨[], [], rfl, List.not_mem_nil, .nil⟩
    | false => exact .blank (by decide) .nil
  | cons ch s ih =>
    rw [splitSpace] at h
    split at h
    · next hch => exact spaceFrom_cons hch (ih h)
    · cases h

theorem splitSpace_comment {words : Text} (hwords : '\n' ∉ words) (s : Text) :
    splitSpace true (words ++ '\n' :: s) =
      (words ++ '\n' :: (splitSpace false s).1, (splitSpace false s).2) := by
  induction words with
  | nil => rfl
  | cons ch words ih =>
    rw [List.mem_cons, not_or] at hwords
    rw [List.cons_append, splitSpace, if_pos (Or.inl rfl)]
    simp only [if_true, ne_eq, Ne.symm hwords.1, not_false_eq_true, decide_true]
    rw [ih hwords.2]
    rfl

/-- Space is cut off, and cutting goes on behind it. -/
theorem splitSpace_append {space : Text} (hspace : IsSpace space) (s : Text) :
    splitSpace false (space ++ s) =
      (space ++ (splitSpace false s).1, (splitSpace false s).2) := by
  induction hspace with
  | nil => rfl
  | @blank ch space hch _ ih =>
    have hpercent : ch ≠ '%' := by
      rintro rfl
      exact absurd hch (by decide)
    rw [List.cons_append, splitSpace, if_pos (Or.inr (Or.inl hch))]
    simp only [Bool.false_eq_true, if_false, hpercent, decide_false]
    rw [ih]
    rfl
  | @comment words space hwords _ ih =>
    rw [List.append_assoc, List.cons_append, List.cons_append, splitSpace,
      if_pos (Or.inr (Or.inr rfl))]
    simp only [Bool.false_eq_true, if_false, decide_true]
    rw [splitSpace_comment hwords, ih]
    simp

/-- A character that neither white space nor a comment starts with. -/
def StartsItem (ch : Char) : Prop := isAsciiSpace ch = false ∧ ch ≠ '%'

theorem splitSpace_of_startsItem (hch : StartsItem ch) (s : Text) :
    splitSpace false (ch :: s) = ([], ch :: s) := by
  rw [splitSpace, if_neg]
  simp [hch.1, hch.2]

theorem startsItem_of_endsName_eq_false (h : endsName ch = false) : StartsItem ch := by
  simp only [endsName, Bool.or_eq_false_iff, beq_eq_false_iff_ne] at h
  exact ⟨h.1.1.1.1, h.1.2⟩

theorem startsItem_of_head?_skipSpace (h : (skipSpace c).head? = some ch) : StartsItem ch := by
  rcases head?_skipSpace h with hname | rfl | rfl | rfl
  · exact startsItem_of_endsName_eq_false hname
  all_goals exact ⟨by decide, by decide⟩

theorem isGap_iff {s : Text} : IsGap s ↔ (splitSpace false s).2 = [] := by
  refine ⟨fun hgap => ?_, spaceFrom_of_splitSpace_eq_nil⟩
  cases hrest : (splitSpace false s).2 with
  | nil => rfl
  | cons ch rest =>
    -- what is left is also left when the last line is ended
    have hspace : IsSpace (splitSpace false s).1 := isSpace_splitSpace (by simp [hrest])
    have hitem : StartsItem ch :=
      startsItem_of_head?_skipSpace (c := .start s) (by
        rw [Cursor.head?, show (skipSpace (.start s)).rest = ch :: rest from hrest]
        rfl)
    have hs : s ++ ['\n'] = (splitSpace false s).1 ++ ch :: (rest ++ ['\n']) := by
      rw [← List.cons_append, ← hrest, ← List.append_assoc, splitSpace_fst_append]
    have hleft : (splitSpace false (s ++ ['\n'])).2 = ch :: (rest ++ ['\n']) := by
      rw [hs, splitSpace_append hspace, splitSpace_of_startsItem hitem]
    have hnone := congrArg Prod.snd (splitSpace_append hgap [])
    rw [List.append_nil, hleft] at hnone
    cases hnone

theorem passes_skipSpace (c : Cursor) : c.Passes (splitSpace false c.rest).1 (skipSpace c) :=
  ⟨(splitSpace_fst_append c.rest false).symm, rfl⟩

/-- Before the next item there is space. -/
theorem exists_space_of_head?_skipSpace (h : (skipSpace c).head? = some ch) :
    ∃ space, IsSpace space ∧ c.Passes space (skipSpace c) := by
  refine ⟨_, isSpace_splitSpace fun hend => ?_, passes_skipSpace c⟩
  have hnone : (skipSpace c).head? = none := Cursor.head?_eq_none_iff.2 hend
  rw [hnone] at h
  cases h

theorem skipSpace_of_passes {space : Text} (hspace : IsSpace space) (hc : c.Passes space d)
    (hd : d.head? = some ch) (hch : StartsItem ch) : skipSpace c = d := by
  have hcut : (splitSpace false c.rest).1 = space := by
    obtain ⟨rest, hrest⟩ : ∃ rest, d.rest = ch :: rest := List.head?_eq_some_iff.1 hd
    rw [hc.rest, splitSpace_append hspace, hrest, splitSpace_of_startsItem hch]
    exact List.append_nil space
  have hskip := passes_skipSpace c
  rw [hcut] at hskip
  exact hskip.unique hc

theorem head?_skipSpace_eq_none_iff : (skipSpace c).head? = none ↔ IsGap c.rest := by
  rw [Cursor.head?_eq_none_iff, isGap_iff]
  rfl

/-! ## Words and integers -/

/-- What can be computed of all characters that end names holds of each. -/
theorem of_endsName {p : Char → Bool} (h : endsName ch = true)
    (hp : [' ', '\t', '\n', '\x0c', '\r', '{', '}', '%', '"'].all p = true) : p ch = true := by
  refine List.all_eq_true.1 hp ch ?_
  simpa [endsName, isAsciiSpace, or_assoc] using h

theorem endsName_of_isDigit (h : ch.isDigit = true) : endsName ch = false := by
  rw [← Bool.not_eq_true]
  intro hends
  have hnot := of_endsName (p := fun m => !m.isDigit) hends (by decide)
  simp [h] at hnot

theorem isAlpha_of_endsName (h : endsName ch = true) : ch.isAlpha = false := by
  simpa using of_endsName (p := fun m => !m.isAlpha) h (by decide)

/-- The digits of an integer and its sign are no characters that end a name. -/
theorem endsName_of_integer? {s : Text} {n : Int} (h : integer? s = some n) (hch : ch ∈ s) :
    endsName ch = false := by
  have hdigits : (if s.head? = some '-' then s.tail else s).all Char.isDigit = true := by
    simp only [integer?, Option.ite_none_right_eq_some] at h
    exact h.1.2.1
  rw [List.all_eq_true] at hdigits
  split at hdigits
  · next hsign =>
    obtain ⟨digits, rfl⟩ := List.head?_eq_some_iff.1 hsign
    rcases List.mem_cons.1 hch with rfl | hmem
    · decide
    · exact endsName_of_isDigit (hdigits ch hmem)
  · exact endsName_of_isDigit (hdigits ch hch)

theorem passes_takeName (c : Cursor) : c.Passes (takeName c).1 (takeName c).2 :=
  Cursor.passes_takeWhile _ c

theorem endsName_of_mem_takeName (h : ch ∈ (takeName c).1) : endsName ch = false := by
  simpa using Cursor.of_mem_takeWhile h

theorem endsName_of_head?_takeName (h : (takeName c).2.head? = some ch) : endsName ch = true := by
  simpa using Cursor.of_head?_takeWhile h

theorem takeName_of_passes {s : Text} (hc : c.Passes s d) (hs : ∀ ch ∈ s, endsName ch = false)
    (hd : ∀ ch, d.head? = some ch → endsName ch = true) : takeName c = (s, d) :=
  Cursor.takeWhile_of_passes hc (fun ch hch => by simp [hs ch hch])
    (fun ch hch => by simp [hd ch hch])

/-! ## Single tokens -/

/-- From `c` to `d` there is a lexeme: a brace or the text of a token. -/
inductive Spans (c : Cursor) : Lexeme → Cursor → Prop
  | opening {d : Cursor} (hc : c.Passes ['{'] d) : Spans c .opening d
  | closing {d : Cursor} (hc : c.Passes ['}'] d) : Spans c .closing d
  | token {t : Token} {w : Text} {d : Cursor} (hw : t.SpelledAs w) (hc : c.Passes w d)
      (hapart : t.IsApart d.rest) : Spans c (.token t) d

theorem spans_of_takeLexeme {l : Lexeme} (h : takeLexeme ch c = .ok (l, d)) (hc : c.head? = some ch)
    (hch : StartsItem ch) : Spans c l d := by
  have hfirst : c.Passes [ch] c.next := Cursor.passes_next hc
  unfold takeLexeme at h
  split at h
  · next hopening =>
    cases h
    exact .opening (hopening ▸ hfirst)
  next hopening =>
  split at h
  · next hclosing =>
    cases h
    exact .closing (hclosing ▸ hfirst)
  next hclosing =>
  split at h
  · next hstring =>
    simp only at h
    split at h
    · next hend =>
      cases h
      rw [hstring] at hfirst
      refine .token (.string fun x hx => ?_) ?_ (Or.inl ⟨_, rfl⟩)
      · simpa using Cursor.of_mem_takeWhile hx
      · exact (hfirst.append (Cursor.passes_takeWhile _ _)).append (Cursor.passes_next hend)
    · cases h
  next hstring =>
  split at h
  · next hsharp =>
    simp only at h
    split at h
    · next n hn =>
      cases h
      rw [hsharp] at hfirst
      exact .token (.integer hn) (hfirst.append (passes_takeName _))
        (Or.inr fun x hx => endsName_of_head?_takeName hx)
    · cases h
  next hsharp =>
  split at h
  · next hquote =>
    simp only at h
    split at h
    · cases h
    · next hne =>
      cases h
      rw [hquote] at hfirst
      exact .token (.quoted ⟨hne, fun x hx => endsName_of_mem_takeName hx⟩)
        (hfirst.append (passes_takeName _)) (Or.inr fun x hx => endsName_of_head?_takeName hx)
  next hquote =>
  simp only at h
  split at h
  · cases h
  · next hdigit =>
    cases h
    have hends : endsName ch = false := by
      simp [endsName, hch.1, hch.2, hopening, hclosing, hstring]
    obtain ⟨rest, hrest⟩ : ∃ rest, c.rest = ch :: rest := List.head?_eq_some_iff.1 hc
    have hname : (takeName c).1 = ch :: rest.takeWhile (!endsName ·) := by
      show c.rest.takeWhile (!endsName ·) = _
      rw [hrest, List.takeWhile_cons_of_pos (by simp [hends])]
    refine .token (.name ⟨⟨?_, fun x hx => endsName_of_mem_takeName hx⟩, ?_, ?_, ?_⟩)
      (passes_takeName c) (Or.inr fun x hx => endsName_of_head?_takeName hx)
    · rw [hname]
      exact List.cons_ne_nil _ _
    all_goals rw [hname, List.head?_cons]
    · exact fun hx => hsharp (Option.some.inj hx)
    · exact fun hx => hquote (Option.some.inj hx)
    · rintro x hx
      rw [← Option.some.inj hx]
      exact Bool.not_eq_true _ ▸ hdigit

/-- Before a lexeme there is space. -/
theorem exists_space_spans {l : Lexeme} (hc : (skipSpace c).head? = some ch)
    (hl : takeLexeme ch (skipSpace c) = .ok (l, d)) :
    ∃ e space, IsSpace space ∧ c.Passes space e ∧ Spans e l d := by
  obtain ⟨space, hspace, hskip⟩ := exists_space_of_head?_skipSpace hc
  exact ⟨_, space, hspace, hskip, spans_of_takeLexeme hl hc (startsItem_of_head?_skipSpace hc)⟩

/-- The text of a token is taken as that token. -/
theorem takeLexeme_of_passes {t : Token} {w : Text} (ht : t.SpelledAs w) (hc : c.Passes w d)
    (hapart : t.IsApart d.rest) :
    ∃ ch, c.head? = some ch ∧ StartsItem ch ∧ takeLexeme ch c = .ok (.token t, d) := by
  cases ht with
  | @integer n s hs =>
    have hd : ∀ ch, d.head? = some ch → endsName ch = true :=
      hapart.endsName fun _ hstring => by cases hstring
    have htake : takeName c.next = (s, d) :=
      takeName_of_passes hc.next (fun ch hch => endsName_of_integer? hs hch) hd
    refine ⟨'#', hc.head?, ⟨by decide, by decide⟩, ?_⟩
    simp [takeLexeme, htake, hs]
  | @string s hs =>
    obtain ⟨e, he, hend⟩ := Cursor.Passes.split (v := '"' :: s) hc
    have htake : c.next.takeWhile (fun x => x ≠ '"' && x ≠ '\n') = (s, e) := by
      refine Cursor.takeWhile_of_passes he.next (fun x hx => ?_) fun x hx => ?_
      · simp [hs x hx]
      · obtain rfl := Option.some.inj (hx.symm.trans hend.head?)
        rfl
    have hnext : e.next = d := (Cursor.passes_next hend.head?).unique hend
    refine ⟨'"', hc.head?, ⟨by decide, by decide⟩, ?_⟩
    rw [takeLexeme, if_neg (by decide), if_neg (by decide), if_pos rfl, htake]
    dsimp only
    rw [if_pos hend.head?, hnext]
  | @name s hs =>
    have hd : ∀ ch, d.head? = some ch → endsName ch = true :=
      hapart.endsName fun _ hstring => by cases hstring
    obtain ⟨ch, rest, rfl⟩ := List.exists_cons_of_ne_nil hs.ne_nil
    have htake : takeName c = (ch :: rest, d) := takeName_of_passes hc hs.inside hd
    have hends : endsName ch = false := hs.inside ch List.mem_cons_self
    have hmarks : ch ≠ '{' ∧ ch ≠ '}' ∧ ch ≠ '"' := by
      refine ⟨?_, ?_, ?_⟩ <;> rintro rfl <;> exact absurd hends (by decide)
    have hsharp : ch ≠ '#' := fun heq => hs.sharp (congrArg some heq)
    have hquote : ch ≠ '\'' := fun heq => hs.quote (congrArg some heq)
    have hdigit : ch.isDigit = false := hs.digit ch rfl
    refine ⟨ch, hc.head?, startsItem_of_endsName_eq_false hends, ?_⟩
    simp [takeLexeme, htake, hmarks, hsharp, hquote, hdigit]
  | @quoted s hs =>
    have hd : ∀ ch, d.head? = some ch → endsName ch = true :=
      hapart.endsName fun _ hstring => by cases hstring
    have htake : takeName c.next = (s, d) := takeName_of_passes hc.next hs.inside hd
    refine ⟨'\'', hc.head?, ⟨by decide, by decide⟩, ?_⟩
    simp [takeLexeme, htake, hs.ne_nil]

/-! ## Rows

When the tokens up to a closing brace are taken, the rows around it are on a stack. -/

/-- The text `tail` closes the blocks of a stack, the innermost of which has the row `row`; `ts` is
the row of the outermost one. -/
def Closes : List (Nat × List Token) → List Token → List Token → Text → Prop
  | [], row, ts, tail => ts = row ∧ tail = []
  | (_, before) :: outer, row, ts, tail =>
    ∃ more inner rest, Row Token.SpelledAs more inner ∧ tail = inner ++ '}' :: rest ∧
      Closes outer (before.reverse ++ .block row :: more) ts rest

/-- What is taken is written by the text that is passed. -/
theorem closes_of_takeTokens {outer : List (Nat × List Token)} {opened : Nat}
    {read ts : List Token} (h : takeTokens outer opened read c = .ok (ts, e)) :
    ∃ more inner rest, Row Token.SpelledAs more inner ∧ c.Passes (inner ++ '}' :: rest) e ∧
      Closes outer (read.reverse ++ more) ts rest := by
  fun_induction takeTokens outer opened read c with
  | case1 => cases h
  | case2 => cases h
  | case3 outer opened read c ch hch t d hl ih =>
    obtain ⟨e', space, hspace, hskip, hspans⟩ := exists_space_spans hch hl
    obtain ⟨more, inner, rest, hmore, hpasses, hcloses⟩ := ih h
    cases hspans with
    | @token _ w _ hw htoken hapart =>
      rw [hpasses.rest, List.append_assoc, List.cons_append, Token.isApart_append_closing] at hapart
      refine ⟨t :: more, space ++ w ++ inner, rest, .token hspace hw hapart hmore, ?_, ?_⟩
      · rw [List.append_assoc]
        exact (hskip.append htoken).append hpasses
      · rwa [List.reverse_cons, List.append_assoc] at hcloses
  | case4 outer opened read c ch hch d hl ih =>
    obtain ⟨e', space, hspace, hskip, hspans⟩ := exists_space_spans hch hl
    obtain ⟨body, inner, tail, hbody, hpasses, more, after, rest, hmore, rfl, hcloses⟩ := ih h
    cases hspans with
    | opening hopening =>
      refine ⟨_, _, rest, .block hspace hbody hmore, ?_, hcloses⟩
      have hall := hskip.append (hopening.append hpasses)
      simpa using hall
  | case5 opened read c ch hch d hl =>
    obtain ⟨e', space, hspace, hskip, hspans⟩ := exists_space_spans hch hl
    cases h
    cases hspans with
    | closing hclosing =>
      refine ⟨[], space, [], .nil hspace, hskip.append hclosing, ?_, rfl⟩
      rw [List.append_nil]
  | case6 opened read c ch hch d hl opened' before outer ih =>
    obtain ⟨e', space, hspace, hskip, hspans⟩ := exists_space_spans hch hl
    obtain ⟨more, inner, rest, hmore, hpasses, hcloses⟩ := ih (by simpa using h)
    cases hspans with
    | closing hclosing =>
      refine ⟨[], space, inner ++ '}' :: rest, .nil hspace, hskip.append (hclosing.append hpasses),
        more, inner, rest, hmore, rfl, ?_⟩
      simpa using hcloses

/-! Taking goes step by step. -/

variable {outer : List (Nat × List Token)} {opened : Nat} {read : List Token}

theorem takeTokens_token {t : Token} (hc : (skipSpace c).head? = some ch)
    (hl : takeLexeme ch (skipSpace c) = .ok (.token t, d)) :
    takeTokens outer opened read c = takeTokens outer opened (t :: read) d := by
  rw [takeTokens]
  split
  · next hnone => cases hc.symm.trans hnone
  · next x hx =>
    obtain rfl : ch = x := Option.some.inj (hc.symm.trans hx)
    split <;> next hl' => cases hl.symm.trans hl' <;> rfl

theorem takeTokens_opening (hc : (skipSpace c).head? = some '{') :
    takeTokens outer opened read c =
      takeTokens ((opened, read) :: outer) (skipSpace c).offset [] (skipSpace c).next := by
  rw [takeTokens]
  split
  · next hnone => cases hc.symm.trans hnone
  · next x hx =>
    obtain rfl : '{' = x := Option.some.inj (hc.symm.trans hx)
    rfl

/-- What becomes of a row when its brace is closed. -/
def close : List (Nat × List Token) → List Token → Cursor → Except Misreading (List Token × Cursor)
  | [], read, c => .ok (read.reverse, c)
  | (opened, before) :: outer, read, c => takeTokens outer opened (.block read.reverse :: before) c

theorem takeTokens_closing (hc : (skipSpace c).head? = some '}') :
    takeTokens outer opened read c = close outer read (skipSpace c).next := by
  rw [takeTokens]
  split
  · next hnone => cases hc.symm.trans hnone
  · next x hx =>
    obtain rfl : '}' = x := Option.some.inj (hc.symm.trans hx)
    cases outer with
    | nil => rfl
    | cons b outer => rfl

/-- The text of a row is taken as that row. -/
theorem takeTokens_of_row {more : List Token} {inner : Text}
    (hmore : Row Token.SpelledAs more inner) (hc : c.Passes inner d) (hd : d.head? = some '}') :
    takeTokens outer opened read c = close outer (more.reverse ++ read) d.next := by
  induction hmore generalizing outer opened read c d with
  | nil hspace =>
    have hskip : skipSpace c = d := skipSpace_of_passes hspace hc hd ⟨by decide, by decide⟩
    rw [takeTokens_closing (hskip.symm ▸ hd), hskip]
    rfl
  | @token t ts space w rest hspace hw hapart _ ih =>
    obtain ⟨a, ha, hrest⟩ := Cursor.Passes.split hc
    obtain ⟨b, hb, hlexeme⟩ := Cursor.Passes.split ha
    have hnext : t.IsApart a.rest := by
      obtain ⟨tail, htail⟩ := List.head?_eq_some_iff.1 hd
      rwa [hrest.rest, htail, Token.isApart_append_closing]
    obtain ⟨ch, hch, hitem, htake⟩ := takeLexeme_of_passes hw hlexeme hnext
    have hskip : skipSpace c = b := skipSpace_of_passes hspace hb hch hitem
    rw [takeTokens_token (hskip.symm ▸ hch) (hskip.symm ▸ htake), ih hrest hd, List.reverse_cons,
      List.append_assoc]
    rfl
  | @block body ts space inside rest hspace _ _ ihbody ih =>
    obtain ⟨a, ha, hblock⟩ := Cursor.Passes.split hc
    obtain ⟨b, hb, hrest⟩ := Cursor.Passes.split hblock.next
    have hskip : skipSpace c = a :=
      skipSpace_of_passes hspace ha hblock.head? ⟨by decide, by decide⟩
    rw [takeTokens_opening (hskip.symm ▸ hblock.head?), hskip, ihbody hb hrest.head?, close,
      ih hrest.next hd, List.append_nil, List.reverse_reverse, List.reverse_cons, List.append_assoc]
    rfl

theorem takeTokens_eq_ok_iff {ts : List Token} :
    takeTokens [] opened [] c = .ok (ts, e) ↔
      ∃ inner, Row Token.SpelledAs ts inner ∧ c.Passes (inner ++ ['}']) e := by
  constructor
  · intro h
    obtain ⟨more, inner, rest, hmore, hpasses, rfl, rfl⟩ := closes_of_takeTokens h
    exact ⟨inner, hmore, hpasses⟩
  · rintro ⟨inner, hrow, hpasses⟩
    obtain ⟨d, hd, hclosing⟩ := hpasses.split
    have hnext : d.next = e := (Cursor.passes_next hclosing.head?).unique hclosing
    rw [takeTokens_of_row hrow hd hclosing.head?, close, hnext, List.append_nil,
      List.reverse_reverse]

/-! ## Arguments -/

theorem takeArguments_eq_ok_iff {word : Text} {start expected missing : Nat}
    {rows : List (List Token)} :
    takeArguments word start expected missing c = .ok (rows, e) ↔
      rows.length = missing ∧ ∃ w, Arguments Token.SpelledAs rows w ∧ c.Passes w e := by
  induction missing generalizing c rows with
  | zero =>
    rw [takeArguments]
    constructor
    · intro h
      cases h
      exact ⟨rfl, [], .nil, Cursor.passes_nil _⟩
    · rintro ⟨hlength, w, hrows, hpasses⟩
      obtain rfl := List.length_eq_zero_iff.1 hlength
      cases hrows
      rw [(Cursor.passes_nil c).unique hpasses]
  | succ missing ih =>
    rw [takeArguments]
    constructor
    · intro h
      split at h
      · next hopening =>
        obtain ⟨space, hspace, hskip⟩ := exists_space_of_head?_skipSpace hopening
        split at h
        · cases h
        · next row d hrow =>
          obtain ⟨inner, hinner, hblock⟩ := takeTokens_eq_ok_iff.1 hrow
          split at h
          · cases h
          · next rows' d' hrows =>
            cases h
            obtain ⟨hlength, w, hw, hpasses⟩ := ih.1 hrows
            refine ⟨congrArg (· + 1) hlength, _, .cons hspace hinner hw, ?_⟩
            have hall := hskip.append ((Cursor.passes_next hopening).append (hblock.append hpasses))
            simpa using hall
      · cases h
    · rintro ⟨hlength, w, hrows, hpasses⟩
      cases hrows with
      | nil => cases hlength
      | @cons row rows space inner rest hspace hrow hrest =>
        obtain ⟨a, ha, hblock⟩ := hpasses.split
        have hskip : skipSpace c = a :=
          skipSpace_of_passes hspace ha hblock.head? ⟨by decide, by decide⟩
        obtain ⟨b, hb, hafter⟩ := Cursor.Passes.split (v := inner ++ ['}']) (by
          rw [List.append_assoc]
          exact hblock.next)
        have htake : takeTokens [] a.offset [] a.next = .ok (row, b) :=
          takeTokens_eq_ok_iff.2 ⟨inner, hrow, hb⟩
        have hothers := ih.2 ⟨Nat.succ.inj hlength, rest, hrest, hafter⟩
        simp only [hskip, hblock.head?, if_true, htake, hothers]

/-! ## Single commands -/

theorem namesOf_names (names : List Text) : namesOf (names.map .name) = .ok names := by
  induction names with
  | nil => rfl
  | cons s names ih =>
    rw [List.map_cons, namesOf, ih]
    rfl

/-- A row whose names are taken holds nothing else. -/
theorem eq_of_namesOf {row : List Token} {names : List Text} (h : namesOf row = .ok names) :
    row = names.map .name := by
  induction row generalizing names with
  | nil =>
    cases h
    rfl
  | cons t row ih =>
    cases t with
    | name s =>
      rw [namesOf] at h
      cases hrow : namesOf row with
      | error fault =>
        rw [hrow] at h
        cases h
      | ok names' =>
        rw [hrow] at h
        cases h
        rw [ih hrow]
        rfl
    | _ => cases h

theorem eq_of_nameOf {command : String} {row : List Token} {name : Text}
    (h : nameOf command row = .ok name) : row = [.name name] := by
  obtain ⟨names, hnames, hone⟩ := exists_of_bind_eq_ok h
  rw [eq_of_namesOf hnames]
  split at hone
  · cases hone
    rfl
  · cases hone

/-- A command that takes a row of names. -/
theorem eq_of_namesOf_bind {row : List Token} {f : List Text → Command} {c : Command}
    (h : (namesOf row >>= fun names => pure (f names)) = Except.ok c) :
    ∃ names, row = names.map .name ∧ c = f names := by
  obtain ⟨names, hnames, hend⟩ := exists_of_bind_eq_ok h
  cases hend
  exact ⟨names, eq_of_namesOf hnames, rfl⟩

/-- A command that takes a name. -/
theorem eq_of_nameOf_bind {command : String} {row : List Token} {f : Text → Command} {c : Command}
    (h : (nameOf command row >>= fun name => pure (f name)) = Except.ok c) :
    ∃ name, row = [.name name] ∧ c = f name := by
  obtain ⟨name, hname, hend⟩ := exists_of_bind_eq_ok h
  cases hend
  exact ⟨name, eq_of_nameOf hname, rfl⟩

def keyword : Command → String
  | .entry _ _ _ => "entry"
  | .integers _ => "integers"
  | .strings _ => "strings"
  | .function _ _ => "function"
  | .abbreviation _ _ => "macro"
  | .read => "read"
  | .execute _ => "execute"
  | .iterate _ => "iterate"
  | .reverse _ => "reverse"
  | .sort => "sort"

theorem toList_keyword (c : Command) : (keyword c).toList = Text.asciiLower c.word.toList := by
  cases c <;> simp [keyword, Command.word, Text.asciiLower]

theorem lookup_keyword (c : Command) : arities.lookup (keyword c) = some c.arguments.length := by
  cases c <;> rfl

theorem commandOf_keyword (c : Command) : commandOf (keyword c) c.arguments = .ok c := by
  have hname (command : String) (name : Text) : nameOf command [.name name] = .ok name := rfl
  cases c <;> simp only [keyword, Command.arguments, commandOf, namesOf_names, hname] <;> rfl

/-- A command comes from its own word and arguments. -/
theorem eq_of_commandOf {word : String} {rows : List (List Token)} {c : Command}
    (hlength : arities.lookup word = some rows.length) (h : commandOf word rows = .ok c) :
    word = keyword c ∧ rows = c.arguments := by
  unfold commandOf at h
  split at h
  · obtain ⟨fields, hfields, hrest⟩ := exists_of_bind_eq_ok h
    obtain ⟨integers, hintegers, hrest⟩ := exists_of_bind_eq_ok hrest
    obtain ⟨strings, hstrings, hend⟩ := exists_of_bind_eq_ok hrest
    cases hend
    rw [eq_of_namesOf hfields, eq_of_namesOf hintegers, eq_of_namesOf hstrings]
    exact ⟨rfl, rfl⟩
  · obtain ⟨names, rfl, rfl⟩ := eq_of_namesOf_bind h
    exact ⟨rfl, rfl⟩
  · obtain ⟨names, rfl, rfl⟩ := eq_of_namesOf_bind h
    exact ⟨rfl, rfl⟩
  · obtain ⟨name, rfl, rfl⟩ := eq_of_nameOf_bind h
    exact ⟨rfl, rfl⟩
  · obtain ⟨name, hname, hvalue⟩ := exists_of_bind_eq_ok h
    rw [eq_of_nameOf hname]
    split at hvalue
    · cases hvalue
      exact ⟨rfl, rfl⟩
    · cases hvalue
  · cases h
    exact ⟨rfl, List.length_eq_zero_iff.1 (Option.some.inj hlength).symm⟩
  · cases h
    exact ⟨rfl, List.length_eq_zero_iff.1 (Option.some.inj hlength).symm⟩
  · obtain ⟨name, rfl, rfl⟩ := eq_of_nameOf_bind h
    exact ⟨rfl, rfl⟩
  · obtain ⟨name, rfl, rfl⟩ := eq_of_nameOf_bind h
    exact ⟨rfl, rfl⟩
  · obtain ⟨name, rfl, rfl⟩ := eq_of_nameOf_bind h
    exact ⟨rfl, rfl⟩
  · cases h

theorem isAlpha_of_sameIgnoringAsciiCase {s : Text} {c : Command}
    (hs : s.sameIgnoringAsciiCase c.word.toList = true) : ∀ ch ∈ s, ch.isAlpha = true := by
  have hword : ∀ ch ∈ c.word.toList, ch.isAlpha = true := by
    rw [← List.all_eq_true]
    cases c <;> simp [Command.word]
  intro ch hch
  have hlower : ch.toLower ∈ Text.asciiLower c.word.toList :=
    eq_of_beq hs ▸ List.mem_map_of_mem hch
  obtain ⟨k, hk, heq⟩ := List.mem_map.1 hlower
  rw [← Unicode.isAlpha_toLower, ← heq, Unicode.isAlpha_toLower]
  exact hword k hk

/-- The text of arguments starts with space or with a brace. -/
theorem isAlpha_of_head?_arguments {rows : List (List Token)} {w : Text}
    (h : Arguments Token.SpelledAs rows w) (hch : w.head? = some ch) : ch.isAlpha = false := by
  cases h with
  | nil => cases hch
  | @cons row rows space inner rest hspace _ _ =>
    cases space with
    | nil =>
      rw [← Option.some.inj hch]
      decide
    | cons x space =>
      obtain rfl := Option.some.inj hch
      refine isAlpha_of_endsName ?_
      rcases hspace.head? rfl with hblank | rfl
      · simp [endsName, hblank]
      · decide

theorem ofList_asciiLower_eq_keyword_iff {s : Text} {c : Command} :
    String.ofList s.asciiLower = keyword c ↔ s.sameIgnoringAsciiCase c.word.toList = true := by
  rw [← String.toList_inj, String.toList_ofList, toList_keyword, Text.sameIgnoringAsciiCase,
    beq_iff_eq]

theorem ne_nil_of_sameIgnoringAsciiCase {s : Text} {c : Command}
    (hs : s.sameIgnoringAsciiCase c.word.toList = true) : s ≠ [] := by
  rintro rfl
  have hword : c.word.toList = [] := (List.map_eq_nil_iff.1 (eq_of_beq hs).symm)
  revert hword
  cases c <;> simp [Command.word]

/-- A command is taken if the text that is passed writes it, what follows does not prolong its word
and it has no further argument. -/
theorem takeCommand_eq_ok_iff {p : PlacedCommand} :
    takeCommand ch c = .ok (p, e) ↔
      ∃ w, p.command.WrittenAs Token.SpelledAs w ∧ c.Passes w e ∧ p.start = c.offset ∧
        p.stop = e.offset ∧ p.command.IsApart e.rest ∧ (skipSpace e).head? ≠ some '{' := by
  constructor
  · intro h
    have hword := Cursor.passes_takeWhile Char.isAlpha c
    have hend : ∀ x, (c.takeWhile Char.isAlpha).2.head? = some x → x.isAlpha = false :=
      fun x hx => Cursor.of_head?_takeWhile hx
    rw [takeCommand] at h
    generalize c.takeWhile Char.isAlpha = taken at h hword hend
    obtain ⟨word, after⟩ := taken
    dsimp only at h hword hend
    split at h
    · cases h
    split at h
    · cases h
    next expected hexpected =>
    split at h
    · cases h
    next rows last hrows =>
    split at h
    · cases h
    next hbrace =>
    split at h
    · cases h
    next command hcommand =>
    cases h
    obtain ⟨hlength, w, hw, hpasses⟩ := takeArguments_eq_ok_iff.1 hrows
    obtain ⟨hkeyword, rfl⟩ := eq_of_commandOf (hlength ▸ hexpected) hcommand
    refine ⟨word ++ w, ⟨word, w, rfl, ofList_asciiLower_eq_keyword_iff.1 hkeyword, hw⟩,
      hword.append hpasses, rfl, rfl, fun hnone => ?_, hbrace⟩
    dsimp only at hnone
    rw [hnone] at hw
    cases hw
    rw [← (Cursor.passes_nil after).unique hpasses]
    exact hend
  · rintro ⟨w, ⟨word, rest, rfl, hword, hrows⟩, hpasses, hstart, hstop, hapart, hbrace⟩
    obtain ⟨after, hafter, hrest⟩ := hpasses.split
    have htake : c.takeWhile Char.isAlpha = (word, after) := by
      refine Cursor.takeWhile_of_passes hafter (isAlpha_of_sameIgnoringAsciiCase hword) ?_
      intro x hx
      rw [Cursor.head?, hrest.rest] at hx
      cases rest with
      | nil => exact hapart (hrows.eq_nil rfl) x hx
      | cons y rest => exact isAlpha_of_head?_arguments hrows hx
    have hkeyword : String.ofList word.asciiLower = keyword p.command :=
      ofList_asciiLower_eq_keyword_iff.2 hword
    have htaken : takeArguments word c.offset p.command.arguments.length p.command.arguments.length
        after = .ok (p.command.arguments, e) :=
      takeArguments_eq_ok_iff.2 ⟨rfl, rest, hrows, hrest⟩
    obtain ⟨command, start, stop⟩ := p
    dsimp only at hstart hstop
    rw [takeCommand, htake]
    dsimp only at hkeyword htaken ⊢
    rw [if_neg (ne_nil_of_sameIgnoringAsciiCase hword), hkeyword, lookup_keyword]
    dsimp only
    rw [htaken]
    dsimp only
    rw [if_neg hbrace, commandOf_keyword, hstart, hstop]

/-! ## All commands -/

/-- The commands from a cursor on, each placed on the text that writes it. -/
inductive Places : Cursor → List PlacedCommand → Prop
  | nil {c : Cursor} (hgap : IsGap c.rest) : Places c []
  | cons {c d e : Cursor} {p : PlacedCommand} {ps : List PlacedCommand} {space w : Text}
      (hspace : IsSpace space) (hc : c.Passes space d)
      (hw : p.command.WrittenAs Token.SpelledAs w) (hd : d.Passes w e)
      (hstart : p.start = d.offset) (hstop : p.stop = e.offset)
      (hapart : p.command.IsApart e.rest) (hps : Places e ps) : Places c (p :: ps)

/-- The text of a command starts with a letter. -/
theorem exists_cons_of_writtenAs {command : Command} {w : Text}
    (hw : command.WrittenAs Token.SpelledAs w) :
    ∃ ch rest, w = ch :: rest ∧ ch.isAlpha = true := by
  obtain ⟨word, rest, rfl, hword, -⟩ := hw
  obtain ⟨ch, word, rfl⟩ := List.exists_cons_of_ne_nil (ne_nil_of_sameIgnoringAsciiCase hword)
  exact ⟨ch, word ++ rest, rfl, isAlpha_of_sameIgnoringAsciiCase hword ch List.mem_cons_self⟩

theorem startsItem_of_isAlpha (h : ch.isAlpha = true) : StartsItem ch := by
  refine startsItem_of_endsName_eq_false ?_
  rw [← Bool.not_eq_true]
  intro hends
  rw [isAlpha_of_endsName hends] at h
  cases h

/-- Where commands follow, no argument does. -/
theorem Places.head?_ne {ps : List PlacedCommand} (h : Places c ps) :
    (skipSpace c).head? ≠ some '{' := by
  cases h with
  | nil hgap =>
    rw [head?_skipSpace_eq_none_iff.2 hgap]
    exact fun heq => by cases heq
  | cons hspace hc hw hd =>
    obtain ⟨ch, rest, rfl, hletter⟩ := exists_cons_of_writtenAs hw
    rw [skipSpace_of_passes hspace hc hd.head? (startsItem_of_isAlpha hletter), hd.head?]
    rintro heq
    obtain rfl := Option.some.inj heq
    exact absurd hletter (by decide)

theorem takeCommands_of_places {ps : List PlacedCommand} (h : Places c ps) :
    takeCommands c = .ok ps := by
  induction h with
  | nil hgap =>
    rw [takeCommands, head?_skipSpace_eq_none_iff.2 hgap]
  | @cons c d e p ps space w hspace hc hw hd hstart hstop hapart hps ih =>
    obtain ⟨ch, rest, rfl, hletter⟩ := exists_cons_of_writtenAs hw
    have hskip : skipSpace c = d :=
      skipSpace_of_passes hspace hc hd.head? (startsItem_of_isAlpha hletter)
    have htake : takeCommand ch d = .ok (p, e) :=
      takeCommand_eq_ok_iff.2 ⟨_, hw, hd, hstart, hstop, hapart, hps.head?_ne⟩
    rw [takeCommands, hskip, hd.head?]
    dsimp only
    split
    · next htake' => cases htake.symm.trans htake'
    · next p' d' htake' =>
      cases htake.symm.trans htake'
      rw [ih]
      rfl

theorem places_of_takeCommands {ps : List PlacedCommand} (h : takeCommands c = .ok ps) :
    Places c ps := by
  fun_induction takeCommands c generalizing ps with
  | case1 c hc =>
    cases h
    exact .nil (head?_skipSpace_eq_none_iff.1 hc)
  | case2 => cases h
  | case3 c ch hc p d hp ih =>
    cases hrest : takeCommands d with
    | error misreading =>
      rw [hrest] at h
      cases h
    | ok ps' =>
      rw [hrest] at h
      cases h
      obtain ⟨space, hspace, hskip⟩ := exists_space_of_head?_skipSpace hc
      obtain ⟨w, hw, hpasses, hstart, hstop, hapart, -⟩ := takeCommand_eq_ok_iff.1 hp
      exact .cons hspace hskip hw hpasses hstart hstop hapart (ih hrest)

/-- **The reader reads the commands that the text writes, each where it stands.** -/
theorem takeCommands_eq_ok_iff {ps : List PlacedCommand} :
    takeCommands c = .ok ps ↔ Places c ps :=
  ⟨places_of_takeCommands, takeCommands_of_places⟩

theorem map_command_locate (file : Nat) (l : Location) (rest : Text) (ps : List PlacedCommand) :
    (locate file l rest ps).map (·.command) = ps.map (·.command) := by
  induction ps generalizing l rest with
  | nil => rfl
  | cons p ps ih => exact congrArg (p.command :: ·) (ih _ _)

theorem ofText_eq_ok_iff {source : Text} {file : Nat} {p : Program} :
    Program.ofText source file = .ok p ↔
      ∃ ps, Places (.start source) ps ∧ p = locate file ⟨0, 0, 0⟩ source ps := by
  rw [Program.ofText]
  constructor
  · intro h
    split at h
    · cases h
    · next ps hps =>
      cases h
      exact ⟨ps, takeCommands_eq_ok_iff.1 hps, rfl⟩
  · rintro ⟨ps, hps, rfl⟩
    rw [takeCommands_eq_ok_iff.2 hps]

/-! ## Listings -/

/-- The commands that a text writes stand somewhere in it. -/
theorem places_of_listing {cs : List Command} {s : Text} (h : Listing Token.SpelledAs cs s)
    (hc : c.rest = s) : ∃ ps, Places c ps ∧ ps.map (·.command) = cs := by
  induction h generalizing c with
  | nil hgap =>
    rw [← hc] at hgap
    exact ⟨[], .nil hgap, rfl⟩
  | @cons command cs space w rest hspace hw hapart _ ih =>
    have hpasses : c.Passes (space ++ w) (c.past (space ++ w) rest) := Cursor.passes_of_rest hc
    obtain ⟨ps, hps, rfl⟩ := ih (c := c.past (space ++ w) rest) rfl
    obtain ⟨d, hd, he⟩ := hpasses.split
    exact ⟨⟨command, d.offset, _⟩ :: ps, .cons hspace hd hw he rfl rfl hapart hps, rfl⟩

theorem listing_of_places {ps : List PlacedCommand} (h : Places c ps) :
    Listing Token.SpelledAs (ps.map (·.command)) c.rest := by
  induction h with
  | nil hgap => exact .nil hgap
  | cons hspace hc hw hd _ _ hapart _ ih =>
    rw [hc.rest, hd.rest, ← List.append_assoc]
    exact .cons hspace hw hapart ih

/-- **The commands that are read are those that the text writes.** -/
theorem listing_iff {source : Text} (file : Nat) {cs : List Command} :
    Listing Token.SpelledAs cs source ↔
      ∃ p, Program.ofText source file = .ok p ∧ p.map (·.command) = cs := by
  constructor
  · intro h
    obtain ⟨ps, hps, rfl⟩ := places_of_listing (c := .start source) h rfl
    exact ⟨_, ofText_eq_ok_iff.2 ⟨ps, hps, rfl⟩, map_command_locate _ _ _ ps⟩
  · rintro ⟨p, hp, rfl⟩
    obtain ⟨ps, hps, rfl⟩ := ofText_eq_ok_iff.1 hp
    rw [map_command_locate]
    exact listing_of_places hps

end Bibliography.Style.Reader
