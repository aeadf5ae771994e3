import Bibliography.Proofs.Tex.Parts

set_option autoImplicit false

/-! # Cuts at brace level 0

A text that is split at single characters is its parts with the separators between them (`Cuts`):
it is cut at every separator before which as many braces were opened as closed, and nowhere else.
The level is signed, so in a text that is not balanced a closing brace can hide separators as well
as an opening one. But at a cut it is zero, so each part can be judged by itself; the parts of a
balanced text are balanced and are what is cut out again when they are joined with separators.

Main statement: `splitAtLevel0_lossless`.
-/

namespace Bibliography.Tex

open NameFormat (isBrace)

variable {isSep : Char → Bool} {c : Char} {pre s first part : Text} {pieces : List (Char × Text)}

/-! ## Cuts -/

/-- As many braces are opened as closed. -/
def AtLevel0 (s : Text) : Prop := s.count '{' = s.count '}'

/-- The text, which is read behind `pre`, has no separator at level 0. -/
def Uncut (isSep : Char → Bool) (pre s : Text) : Prop :=
  ∀ before c after, s = before ++ c :: after → isSep c = true → ¬ AtLevel0 (pre ++ before)

/-- The text of a part and of others behind it, each with the separator before it. -/
def interleaved (first : Text) (pieces : List (Char × Text)) : Text :=
  first ++ pieces.flatMap fun q => q.1 :: q.2

/-- A text that is read behind `pre`, cut at separators: its first part, and the others with the
separator before each. -/
inductive Cuts (isSep : Char → Bool) : Text → Text → List (Char × Text) → Prop
  | nil (pre : Text) : Cuts isSep pre [] []
  | char {pre first : Text} {pieces : List (Char × Text)} {c : Char}
      (hnot : ¬ CutsAt isSep (pre.foldl levelAfter 0) c)
      (h : Cuts isSep (pre ++ [c]) first pieces) :
      Cuts isSep pre (c :: first) pieces
  | cut {pre first : Text} {pieces : List (Char × Text)} {c : Char}
      (hcuts : CutsAt isSep (pre.foldl levelAfter 0) c) (h : Cuts isSep (pre ++ [c]) first pieces) :
      Cuts isSep pre [] ((c, first) :: pieces)

/-- Where a separator that is no brace cuts. -/
theorem cutsAt_iff (hsep : ∀ c, isSep c = true → isBrace c = false) :
    CutsAt isSep (pre.foldl levelAfter 0) c ↔ isSep c = true ∧ AtLevel0 pre := by
  have hlevel : pre.foldl levelAfter 0 = 0 ↔ AtLevel0 pre := by
    rw [foldl_levelAfter, AtLevel0]
    omega
  rw [CutsAt, hlevel]
  constructor
  · rintro ⟨-, hzero, hc⟩
    exact ⟨hc, hzero⟩
  · rintro ⟨hc, hzero⟩
    have hbrace : ¬ (c = '{' ∨ c = '}') := not_or.2 (isBrace_eq_false_iff.1 (hsep c hc))
    exact ⟨hbrace, hzero, hc⟩

/-- **Every text can be cut.** -/
theorem exists_cuts (isSep : Char → Bool) (pre s : Text) :
    ∃ first pieces, s = interleaved first pieces ∧ Cuts isSep pre first pieces := by
  induction s generalizing pre with
  | nil => exact ⟨[], [], rfl, .nil pre⟩
  | cons c s ih =>
    obtain ⟨first, pieces, rfl, h⟩ := ih (pre ++ [c])
    by_cases hcuts : CutsAt isSep (pre.foldl levelAfter 0) c
    · exact ⟨[], (c, first) :: pieces, rfl, .cut hcuts h⟩
    · exact ⟨c :: first, pieces, rfl, .char hcuts h⟩

/-- Splitting finds the parts. -/
theorem Cuts.splitAtLevel0From_eq (h : Cuts isSep pre first pieces) :
    splitAtLevel0From isSep (pre.foldl levelAfter 0) (interleaved first pieces) =
      first :: pieces.map Prod.snd := by
  induction h with
  | nil pre => rfl
  | char hnot _ ih =>
    rw [List.foldl_append] at ih
    exact splitAtLevel0From_cons_of_not_cutsAt hnot ih
  | @cut pre first pieces c hcuts _ ih =>
    have hlevel : (pre ++ [c]).foldl levelAfter 0 = 0 := by
      have hother : isBrace c = false := isBrace_eq_false_iff.2 (not_or.1 hcuts.1)
      rw [List.foldl_append, hcuts.2.1]
      exact levelAfter_of_other hother 0
    rw [hlevel] at ih
    exact (splitAtLevel0From_cons_of_cutsAt hcuts (interleaved first pieces)).trans
      (congrArg ([] :: ·) ih)

section Separators

variable (hsep : ∀ c, isSep c = true → isBrace c = false)
include hsep

/-- No part could be cut again where it stands. -/
theorem Cuts.uncut (h : Cuts isSep pre first pieces) : Uncut isSep pre first := by
  induction h with
  | nil pre =>
    intro before c after heq
    simp at heq
  | @char pre first pieces c hnot _ ih =>
    intro before d after heq hd hzero
    cases before with
    | nil =>
      obtain ⟨rfl, -⟩ := List.cons.inj heq
      rw [List.append_nil] at hzero
      exact hnot ((cutsAt_iff hsep).2 ⟨hd, hzero⟩)
    | cons x before =>
      obtain ⟨rfl, hrest⟩ := List.cons.inj heq
      exact ih before d after hrest hd (by rwa [List.append_assoc])
  | cut =>
    intro before c after heq
    simp at heq

/-- Each cut is at a separator at level 0, and the part behind it could not be cut again. -/
theorem Cuts.cut_at (h : Cuts isSep pre first pieces) {before after : List (Char × Text)}
    (heq : pieces = before ++ (c, part) :: after) :
    isSep c = true ∧ AtLevel0 (pre ++ interleaved first before) ∧
      Uncut isSep (pre ++ interleaved first before ++ [c]) part := by
  induction h generalizing before with
  | nil pre => simp at heq
  | @char pre first pieces d _ _ ih => simpa [interleaved] using ih heq
  | @cut pre first pieces d hcuts h ih =>
    cases before with
    | nil =>
      obtain ⟨hpiece, rfl⟩ := List.cons.inj heq
      cases hpiece
      obtain ⟨hc, hzero⟩ := (cutsAt_iff hsep).1 hcuts
      simpa [interleaved] using ⟨hc, hzero, h.uncut hsep⟩
    | cons q before =>
      obtain ⟨rfl, rfl⟩ := List.cons.inj heq
      simpa [interleaved] using ih rfl

/-- **The parts of a text have no separators at level 0 of their own.** -/
theorem uncut_of_mem_splitAtLevel0 (hpart : part ∈ splitAtLevel0 isSep s) :
    Uncut isSep [] part := by
  obtain ⟨first, pieces, rfl, h⟩ := exists_cuts isSep [] s
  have hparts : splitAtLevel0 isSep (interleaved first pieces) = first :: pieces.map Prod.snd :=
    h.splitAtLevel0From_eq
  rw [hparts] at hpart
  rcases List.mem_cons.1 hpart with rfl | hpart
  · exact h.uncut hsep
  · obtain ⟨⟨c, part⟩, hmem, rfl⟩ := List.mem_map.1 hpart
    obtain ⟨before, after, heq⟩ := List.append_of_mem hmem
    obtain ⟨hc, hzero, huncut⟩ := h.cut_at hsep heq
    intro start d rest hsplit hd hlevel
    refine huncut start d rest hsplit hd ?_
    -- the text up to the part is at level 0, with the separator too
    have hbrace : c ≠ '{' ∧ c ≠ '}' := isBrace_eq_false_iff.1 (hsep c hc)
    rw [AtLevel0, List.nil_append] at hlevel hzero
    rw [AtLevel0, List.nil_append, List.count_append, List.count_append, List.count_append,
      List.count_append, hzero, hlevel, List.count_singleton, List.count_singleton]
    simp [hbrace.1, hbrace.2]

end Separators

/-! ## Joining again -/

/-- **Words that are joined with single gaps are found again.** -/
theorem splitWords_join_splitWords (hs : isBalanced s = true) (hc : isGap c = true) :
    splitWords (Text.join [c] (splitWords s)) = splitWords s :=
  nonemptyParts_join_of_onlyInBraces isBrace_eq_false_of_isGap (List.forall_mem_singleton.2 hc)
    (List.cons_ne_nil _ _) fun _ => word_of_mem_splitWords hs

/-- **Splitting at level 0 loses nothing.** The text is its parts with separators between them. Each
cut is where as many braces were opened as closed, and no part has a separator at such a point; the
parts of a balanced text are balanced. Words are not empty and have no gaps outside braces, and
those of a balanced text, joined with single blanks or ties, are split into the same words. -/
theorem splitAtLevel0_lossless (hsep : ∀ c, isSep c = true → isBrace c = false) (s : Text) :
    (∃ (first : Text) (pieces : List (Char × Text)),
      s = interleaved first pieces ∧
      splitAtLevel0 isSep s = first :: pieces.map Prod.snd ∧
      Uncut isSep [] first ∧
      ∀ before c part after, pieces = before ++ (c, part) :: after →
        isSep c = true ∧ AtLevel0 (interleaved first before) ∧
          Uncut isSep (interleaved first before ++ [c]) part) ∧
    (checkBraces s = .ok () → ∀ part ∈ splitAtLevel0 isSep s, checkBraces part = .ok ()) ∧
    (∀ w ∈ splitWords s, w ≠ [] ∧ Uncut isGap [] w) ∧
    (checkBraces s = .ok () →
      (∀ w ∈ splitWords s, OnlyInBraces isGap 0 w) ∧
      splitWords (Text.join [' '] (splitWords s)) = splitWords s ∧
      splitWords (Text.join ['~'] (splitWords s)) = splitWords s) := by
  obtain ⟨first, pieces, heq, h⟩ := exists_cuts isSep [] s
  refine ⟨⟨first, pieces, heq, ?_, h.uncut hsep, fun before c part after => h.cut_at hsep⟩, ?_,
    fun w hw => ?_, fun hs => ?_⟩
  · rw [heq]
    exact h.splitAtLevel0From_eq
  · intro hs part hpart
    rw [checkBraces_eq_ok_iff] at hs ⊢
    exact isBalanced_of_mem_splitAtLevel0 hs hpart
  · obtain ⟨hmem, hne⟩ := List.mem_filter.1 hw
    exact ⟨of_decide_eq_true hne, uncut_of_mem_splitAtLevel0 isBrace_eq_false_of_isGap hmem⟩
  · rw [checkBraces_eq_ok_iff] at hs
    exact ⟨fun w hw => (word_of_mem_splitWords hs hw).2.1,
      splitWords_join_splitWords hs rfl, splitWords_join_splitWords hs rfl⟩

/-- A name with a tie in braces and another outside. -/
theorem splitAtLevel0_lossless_tied :
    checkBraces "\x7bvan~der\x7d  Au~Inge".toList = .ok () ∧
      splitWords "\x7bvan~der\x7d  Au~Inge".toList =
        ["\x7bvan~der\x7d".toList, "Au".toList, "Inge".toList] ∧
      splitWords "\x7bvan~der\x7d~Au~Inge".toList =
        ["\x7bvan~der\x7d".toList, "Au".toList, "Inge".toList] := by
  have hs : checkBraces "\x7bvan~der\x7d  Au~Inge".toList = .ok () := rfl
  have hwords : splitWords "\x7bvan~der\x7d  Au~Inge".toList =
      ["\x7bvan~der\x7d".toList, "Au".toList, "Inge".toList] := by decide
  have hties := ((splitAtLevel0_lossless isBrace_eq_false_of_isGap
    "\x7bvan~der\x7d  Au~Inge".toList).2.2.2 hs).2.2
  rw [hwords] at hties
  exact ⟨hs, hwords, hties⟩

/-- A brace that closes none hides separators up to one that opens. -/
example : splitAtLevel0 (· == ',') "a\x7d,b\x7b,c".toList = ["a\x7d,b\x7b".toList, "c".toList] := by
  decide

end Bibliography.Tex
