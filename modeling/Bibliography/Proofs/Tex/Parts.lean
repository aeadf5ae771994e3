import Bibliography.Proofs.Tex.Splitting
import Mathlib.Data.List.Basic

set_option autoImplicit false

/-! # Parts and how they are joined

Splitting at separators outside braces is undone by joining, and the other way round, because a
balanced text leaves the level where it was: behind it a separator cuts, and any other character
goes on with the last part. A text whose separators all lie inside braces (`OnlyInBraces`) is not
cut at all. The parts of a text are such, and they stay such for separators of another kind, since
they stand where no brace is open. So the words of the segments of a name (`IsWord`), joined with
blanks and commas, are found again (`splitWords_join`, `segmentWords_join`), and white space around
a name belongs to none of its words (`segmentWords_trim`).
-/

namespace Bibliography.Tex

open NameFormat (isBrace)

/-! ## One character at a time -/

variable {isSep : Char → Bool} {level : Int} {n : Nat} {c : Char} {s t part : Text}
  {parts : List Text}

/-- Whether the character is a separator that cuts a text read at a given level. -/
def CutsAt (isSep : Char → Bool) (level : Int) (c : Char) : Prop :=
  ¬ (c = '{' ∨ c = '}') ∧ level = 0 ∧ isSep c = true

theorem cutsAt_zero (hsep : isSep c = true) (hc : isBrace c = false) : CutsAt isSep 0 c :=
  ⟨not_or.2 (isBrace_eq_false_iff.1 hc), rfl, hsep⟩

theorem splitAtLevel0From_ne_nil (isSep : Char → Bool) (level : Int) (s : Text) :
    splitAtLevel0From isSep level s ≠ [] := by
  cases s with
  | nil => exact List.cons_ne_nil _ _
  | cons c s =>
    rw [splitAtLevel0From]
    split
    · exact List.cons_ne_nil _ _
    · split <;> exact List.cons_ne_nil _ _

/-- A separator ends an empty part. -/
theorem splitAtLevel0From_cons_of_cutsAt (h : CutsAt isSep level c) (s : Text) :
    splitAtLevel0From isSep level (c :: s) = [] :: splitAtLevel0 isSep s := by
  obtain ⟨hbrace, rfl, hsep⟩ := h
  have hlevel : levelAfter 0 c = 0 :=
    levelAfter_of_other (isBrace_eq_false_iff.2 (not_or.1 hbrace)) 0
  obtain ⟨part, parts, hs⟩ := List.exists_cons_of_ne_nil (splitAtLevel0From_ne_nil isSep 0 s)
  rw [splitAtLevel0From, hlevel, splitAtLevel0, hs]
  exact if_pos ⟨hbrace, rfl, hsep⟩

/-- Any other character belongs to the part behind it. -/
theorem splitAtLevel0From_cons_of_not_cutsAt (h : ¬ CutsAt isSep level c)
    (hs : splitAtLevel0From isSep (levelAfter level c) s = part :: parts) :
    splitAtLevel0From isSep level (c :: s) = (c :: part) :: parts := by
  rw [splitAtLevel0From, hs]
  exact if_neg h

/-- A text that is one part is this part. -/
theorem eq_of_splitAtLevel0From_eq_singleton (h : splitAtLevel0From isSep level s = [part]) :
    part = s := by
  induction s generalizing level part with
  | nil =>
    cases h
    rfl
  | cons c s ih =>
    obtain ⟨first, others, hs⟩ :=
      List.exists_cons_of_ne_nil (splitAtLevel0From_ne_nil isSep (levelAfter level c) s)
    by_cases hcuts : CutsAt isSep level c
    · -- a separator would leave another part behind it
      rw [splitAtLevel0From_cons_of_cutsAt hcuts, List.cons.injEq] at h
      exact absurd h.2 (splitAtLevel0From_ne_nil isSep 0 s)
    · rw [splitAtLevel0From_cons_of_not_cutsAt hcuts hs, List.cons.injEq] at h
      obtain ⟨rfl, rfl⟩ := h
      rw [ih hs]

/-- Reading a character of a text that closes all its braces: it is a separator with no brace open,
and cuts, or it goes on. -/
theorem cuts_or_goes_on (isSep : Char → Bool) (hs : openAfter? n (c :: s) = some 0) :
    (n = 0 ∧ isSep c = true ∧ (∀ t, openAfter? 0 (c :: t) = openAfter? 0 t) ∧
      ∀ t, splitAtLevel0From isSep n (c :: t) = [] :: splitAtLevel0 isSep t) ∨
    ¬ CutsAt isSep n c ∧ ∃ n' : Nat, openAfter? n' s = some 0 ∧
      (∀ t, openAfter? n (c :: t) = openAfter? n' t) ∧
      ∀ t part parts, splitAtLevel0From isSep n' t = part :: parts →
        splitAtLevel0From isSep n (c :: t) = (c :: part) :: parts := by
  obtain ⟨n', hlevel, hs', hopen⟩ := levelAfter_of_openAfter? hs
  by_cases hcuts : CutsAt isSep n c
  · obtain rfl : n = 0 := by exact_mod_cast hcuts.2.1
    have hother : isBrace c = false := isBrace_eq_false_iff.2 (not_or.1 hcuts.1)
    exact Or.inl ⟨rfl, hcuts.2.2, openAfter?_cons_other hother 0,
      splitAtLevel0From_cons_of_cutsAt hcuts⟩
  · refine Or.inr ⟨hcuts, n', hs', hopen, fun t part parts ht => ?_⟩
    exact splitAtLevel0From_cons_of_not_cutsAt hcuts (hlevel ▸ ht)

/-! ## Joining behind balanced texts -/

theorem join_cons_cons (sep p q : Text) (ps : List Text) :
    Text.join sep (p :: q :: ps) = p ++ sep ++ Text.join sep (q :: ps) := rfl

theorem splitAtLevel0From_append_cons (hs : openAfter? n s = some 0) (hsep : isSep c = true)
    (hc : isBrace c = false) (t : Text) :
    splitAtLevel0From isSep n (s ++ c :: t) =
      splitAtLevel0From isSep n s ++ splitAtLevel0 isSep t := by
  induction s generalizing n with
  | nil =>
    cases hs
    exact splitAtLevel0From_cons_of_cutsAt (cutsAt_zero hsep hc) t
  | cons x s ih =>
    rw [List.cons_append]
    rcases cuts_or_goes_on isSep hs with ⟨rfl, -, hopen, hcut⟩ | ⟨-, n', hs', -, hon⟩
    · rw [hcut, hcut]
      exact congrArg ([] :: ·) (ih ((hopen s).symm.trans hs))
    · obtain ⟨part, parts, hparts⟩ :=
        List.exists_cons_of_ne_nil (splitAtLevel0From_ne_nil isSep n' s)
      have hjoined := ih hs'
      rw [hparts, List.cons_append] at hjoined
      rw [hon _ _ _ hjoined, hon _ _ _ hparts, List.cons_append]

/-- **Behind a balanced text a separator cuts.** -/
theorem splitAtLevel0_append_cons (hs : isBalanced s = true) (hsep : isSep c = true)
    (hc : isBrace c = false) (t : Text) :
    splitAtLevel0 isSep (s ++ c :: t) = splitAtLevel0 isSep s ++ splitAtLevel0 isSep t :=
  splitAtLevel0From_append_cons ((isBalanced_iff s).1 hs) hsep hc t

/-- What holds no separator goes on with the last part. -/
theorem splitAtLevel0From_append_of_no_separator (ht : ∀ c ∈ t, isSep c = false) (level : Int)
    (s : Text) : ∃ parts last, splitAtLevel0From isSep level s = parts ++ [last] ∧
      splitAtLevel0From isSep level (s ++ t) = parts ++ [last ++ t] := by
  induction s generalizing level with
  | nil =>
    refine ⟨[], [], rfl, ?_⟩
    simp only [List.nil_append]
    induction t generalizing level with
    | nil => rfl
    | cons c t ih =>
      rw [List.forall_mem_cons] at ht
      have hcuts : ¬ CutsAt isSep level c := fun h => by
        rw [h.2.2] at ht
        cases ht.1
      exact splitAtLevel0From_cons_of_not_cutsAt hcuts (ih ht.2 _)
  | cons x s ih =>
    rw [List.cons_append]
    by_cases hcuts : CutsAt isSep level x
    · obtain ⟨parts, last, hs, hst⟩ := ih 0
      refine ⟨[] :: parts, last, ?_, ?_⟩
      · rw [splitAtLevel0From_cons_of_cutsAt hcuts, splitAtLevel0, hs]
        rfl
      · rw [splitAtLevel0From_cons_of_cutsAt hcuts, splitAtLevel0, hst]
        rfl
    · obtain ⟨parts, last, hs, hst⟩ := ih (levelAfter level x)
      cases parts with
      | nil =>
        exact ⟨[], x :: last, splitAtLevel0From_cons_of_not_cutsAt hcuts hs,
          splitAtLevel0From_cons_of_not_cutsAt hcuts hst⟩
      | cons part parts =>
        exact ⟨(x :: part) :: parts, last, splitAtLevel0From_cons_of_not_cutsAt hcuts hs,
          splitAtLevel0From_cons_of_not_cutsAt hcuts hst⟩

/-! ## Separators inside braces -/

/-- In a text that is read with `n` open braces, separators stand only where a brace is open. -/
def OnlyInBraces (isSep : Char → Bool) (n : Nat) (s : Text) : Prop :=
  ∀ before c after, s = before ++ c :: after → isSep c = true → openAfter? n before ≠ some 0

theorem onlyInBraces_nil (isSep : Char → Bool) (n : Nat) : OnlyInBraces isSep n [] := by
  intro before c after h
  simp at h

theorem onlyInBraces_of_no_separator (h : ∀ c ∈ s, isSep c = false) (n : Nat) :
    OnlyInBraces isSep n s := by
  rintro before c after rfl hsep
  have hc := h c (by simp)
  rw [hsep] at hc
  cases hc

theorem OnlyInBraces.append (hs : OnlyInBraces isSep n s) (hclosed : openAfter? n s = some 0)
    (ht : OnlyInBraces isSep 0 t) : OnlyInBraces isSep n (s ++ t) := by
  intro before c after heq hsep
  rcases List.append_eq_append_iff.1 heq with ⟨w, rfl, hw⟩ | ⟨w, hw, hafter⟩
  · rw [openAfter?_append, hclosed, Option.bind_some]
    exact ht w c after hw hsep
  · cases w with
    | nil =>
      rw [List.append_nil] at hw
      subst hw
      rw [hclosed]
      exact (ht [] c after hafter.symm hsep ·)
    | cons x w =>
      obtain ⟨rfl, -⟩ := List.cons.inj hafter
      exact hs before c w hw hsep

/-- Between two places where no brace is open, separators stand inside braces as well. -/
theorem OnlyInBraces.inner {l r : Text} (h : OnlyInBraces isSep n (l ++ s ++ r))
    (hl : openAfter? n l = some 0) : OnlyInBraces isSep 0 s := by
  rintro before c after rfl hsep hclosed
  refine h (l ++ before) c (after ++ r) (by simp) hsep ?_
  rw [openAfter?_append, hl, Option.bind_some, hclosed]

theorem onlyInBraces_join {sep : Text} (hsep : isBalanced sep = true)
    (hsep' : OnlyInBraces isSep 0 sep) {ps : List Text} (hps : ∀ p ∈ ps, isBalanced p = true)
    (hps' : ∀ p ∈ ps, OnlyInBraces isSep 0 p) : OnlyInBraces isSep 0 (Text.join sep ps) := by
  induction ps with
  | nil => exact onlyInBraces_nil isSep 0
  | cons p ps ih =>
    rw [List.forall_mem_cons] at hps hps'
    cases ps with
    | nil => exact hps'.1
    | cons q ps =>
      exact (hps'.1.append ((isBalanced_iff p).1 hps.1) hsep').append
        ((isBalanced_iff _).1 (isBalanced_append hps.1 hsep)) (ih hps.2 hps'.2)

/-- A text with all separators inside braces goes on with the part behind it. -/
theorem splitAtLevel0From_append (hs : openAfter? n s = some 0) (hin : OnlyInBraces isSep n s)
    (ht : splitAtLevel0 isSep t = part :: parts) :
    splitAtLevel0From isSep n (s ++ t) = (s ++ part) :: parts := by
  induction s generalizing n with
  | nil =>
    cases hs
    exact ht
  | cons x s ih =>
    rcases cuts_or_goes_on isSep hs with ⟨rfl, hsep, -, -⟩ | ⟨-, n', hs', hopen, hon⟩
    · exact absurd rfl (hin [] x s rfl hsep)
    · refine hon _ _ _ (ih hs' fun before c after heq hsep hclosed => ?_)
      exact hin (x :: before) c after (by rw [heq]; rfl) hsep (by rw [hopen, hclosed])

theorem splitAtLevel0_append (hs : isBalanced s = true) (hin : OnlyInBraces isSep 0 s)
    (ht : splitAtLevel0 isSep t = part :: parts) :
    splitAtLevel0 isSep (s ++ t) = (s ++ part) :: parts :=
  splitAtLevel0From_append ((isBalanced_iff s).1 hs) hin ht

/-- **A balanced text with all separators inside braces is one part.** -/
theorem splitAtLevel0_of_onlyInBraces (hs : isBalanced s = true) (hin : OnlyInBraces isSep 0 s) :
    splitAtLevel0 isSep s = [s] := by
  have happend := splitAtLevel0_append (t := []) hs hin rfl
  rwa [List.append_nil] at happend

/-! ## Where the parts of a text stand -/

/-- The first part starts a text, the others stand behind places where no brace is open, and none is
cut by the separators. -/
theorem parts_of_splitAtLevel0From (hsep : ∀ c, isSep c = true → isBrace c = false)
    (hs : openAfter? n s = some 0) (hparts : splitAtLevel0From isSep n s = part :: parts) :
    (OnlyInBraces isSep n part ∧ ∃ r, s = part ++ r) ∧
      ∀ p ∈ parts, OnlyInBraces isSep 0 p ∧ ∃ l r, s = l ++ p ++ r ∧ openAfter? n l = some 0 := by
  induction s generalizing n part parts with
  | nil =>
    cases hparts
    exact ⟨⟨onlyInBraces_nil isSep n, [], rfl⟩, List.forall_mem_nil _⟩
  | cons x s ih =>
    rcases cuts_or_goes_on isSep hs with ⟨rfl, -, hopen, hcut⟩ | ⟨hcuts, n', hs', hopen, hon⟩
    · rw [hcut] at hparts
      obtain ⟨rfl, hbehind⟩ := List.cons.inj hparts
      obtain ⟨first, others, hsplit⟩ :=
        List.exists_cons_of_ne_nil (splitAtLevel0From_ne_nil isSep 0 s)
      obtain rfl : first :: others = parts := hsplit.symm.trans hbehind
      obtain ⟨⟨hfirst, r, hr⟩, hothers⟩ := ih ((hopen s).symm.trans hs) hsplit
      refine ⟨⟨onlyInBraces_nil isSep 0, x :: s, rfl⟩, List.forall_mem_cons.2 ⟨?_, ?_⟩⟩
      · exact ⟨hfirst, [x], r, congrArg (x :: ·) hr, hopen []⟩
      · intro p hp
        obtain ⟨hp, l, r, hs, hl⟩ := hothers p hp
        exact ⟨hp, x :: l, r, congrArg (x :: ·) hs, (hopen l).trans hl⟩
    · obtain ⟨first, others, hsplit⟩ :=
        List.exists_cons_of_ne_nil (splitAtLevel0From_ne_nil isSep n' s)
      rw [hon _ _ _ hsplit] at hparts
      obtain ⟨rfl, rfl⟩ := List.cons.inj hparts
      obtain ⟨⟨hfirst, r, hr⟩, hothers⟩ := ih hs' hsplit
      refine ⟨⟨?_, r, congrArg (x :: ·) hr⟩, ?_⟩
      · intro before c after heq hc hclosed
        cases before with
        | nil =>
          obtain ⟨rfl, -⟩ := List.cons.inj heq
          obtain rfl : n = 0 := Option.some.inj hclosed
          exact hcuts (cutsAt_zero hc (hsep x hc))
        | cons y before =>
          obtain ⟨rfl, hrest⟩ := List.cons.inj heq
          exact hfirst before c after hrest hc ((hopen before).symm.trans hclosed)
      · intro p hp
        obtain ⟨hp, l, r, hs, hl⟩ := hothers p hp
        exact ⟨hp, x :: l, r, congrArg (x :: ·) hs, (hopen l).trans hl⟩

/-- The parts of a balanced text are not cut again, and stand where no brace is open. -/
theorem place_of_mem_splitAtLevel0 (hsep : ∀ c, isSep c = true → isBrace c = false)
    (hs : isBalanced s = true) (hpart : part ∈ splitAtLevel0 isSep s) :
    OnlyInBraces isSep 0 part ∧ ∃ l r, s = l ++ part ++ r ∧ openAfter? 0 l = some 0 := by
  obtain ⟨first, others, hsplit⟩ :=
    List.exists_cons_of_ne_nil (splitAtLevel0From_ne_nil isSep 0 s)
  obtain ⟨⟨hfirst, r, hr⟩, hothers⟩ :=
    parts_of_splitAtLevel0From hsep ((isBalanced_iff s).1 hs) hsplit
  have hsplit : splitAtLevel0 isSep s = first :: others := hsplit
  rw [hsplit] at hpart
  rcases List.mem_cons.1 hpart with rfl | hpart
  · exact ⟨hfirst, [], r, hr, rfl⟩
  · exact hothers part hpart

/-- What is not cut by separators of one kind has no parts that are, whatever parts them. -/
theorem OnlyInBraces.of_mem_splitAtLevel0 {isSep' : Char → Bool} (h : OnlyInBraces isSep' 0 s)
    (hsep : ∀ c, isSep c = true → isBrace c = false) (hs : isBalanced s = true)
    (hpart : part ∈ splitAtLevel0 isSep s) : OnlyInBraces isSep' 0 part := by
  obtain ⟨-, l, r, rfl, hl⟩ := place_of_mem_splitAtLevel0 hsep hs hpart
  exact h.inner hl

/-! ## Parts that are not empty -/

/-- The parts of a text between separators outside braces, without the empty ones. -/
def nonemptyParts (isSep : Char → Bool) (s : Text) : List Text :=
  (splitAtLevel0 isSep s).filter (· ≠ [])

theorem nonemptyParts_append_cons (hs : isBalanced s = true) (hsep : isSep c = true)
    (hc : isBrace c = false) (t : Text) :
    nonemptyParts isSep (s ++ c :: t) = nonemptyParts isSep s ++ nonemptyParts isSep t := by
  rw [nonemptyParts, splitAtLevel0_append_cons hs hsep hc, List.filter_append, nonemptyParts,
    nonemptyParts]

section Separators

variable (hsep : ∀ c, isSep c = true → isBrace c = false)
include hsep

/-- Separators at the start of a text belong to no part. -/
theorem nonemptyParts_append_of_separators (ht : ∀ c ∈ t, isSep c = true) (s : Text) :
    nonemptyParts isSep (t ++ s) = nonemptyParts isSep s := by
  induction t with
  | nil => rfl
  | cons c t ih =>
    rw [List.forall_mem_cons] at ht
    calc nonemptyParts isSep ([] ++ c :: (t ++ s))
        = nonemptyParts isSep [] ++ nonemptyParts isSep (t ++ s) :=
          nonemptyParts_append_cons isBalanced_nil ht.1 (hsep c ht.1) (t ++ s)
      _ = nonemptyParts isSep s := ih ht.2

/-- Separators behind a balanced text, and what follows them. -/
theorem nonemptyParts_append_separators_append (hs : isBalanced s = true)
    (ht : ∀ c ∈ t, isSep c = true) (hne : t ≠ []) (u : Text) :
    nonemptyParts isSep (s ++ t ++ u) = nonemptyParts isSep s ++ nonemptyParts isSep u := by
  obtain ⟨c, t, rfl⟩ := List.exists_cons_of_ne_nil hne
  rw [List.forall_mem_cons] at ht
  rw [List.append_assoc, List.cons_append, nonemptyParts_append_cons hs ht.1 (hsep c ht.1),
    nonemptyParts_append_of_separators hsep ht.2]

/-- **Texts that are joined with separators part as they do alone.** -/
theorem nonemptyParts_join (ht : ∀ c ∈ t, isSep c = true) (hne : t ≠ []) {ps : List Text}
    (hps : ∀ p ∈ ps, isBalanced p = true) :
    nonemptyParts isSep (Text.join t ps) = ps.flatMap (nonemptyParts isSep) := by
  induction ps with
  | nil => rfl
  | cons p ps ih =>
    rw [List.forall_mem_cons] at hps
    cases ps with
    | nil => rw [Text.join, List.flatMap_singleton]
    | cons q ps =>
      rw [join_cons_cons, nonemptyParts_append_separators_append hsep hps.1 ht hne, ih hps.2,
        List.flatMap_cons (x := p)]

end Separators

theorem nonemptyParts_of_onlyInBraces (hs : isBalanced s = true) (hin : OnlyInBraces isSep 0 s)
    (hne : s ≠ []) : nonemptyParts isSep s = [s] := by
  rw [nonemptyParts, splitAtLevel0_of_onlyInBraces hs hin]
  simp [hne]

/-- What is joined of texts without separators of their own is parted into them again. -/
theorem nonemptyParts_join_of_onlyInBraces (hsep : ∀ c, isSep c = true → isBrace c = false)
    (ht : ∀ c ∈ t, isSep c = true) (hne : t ≠ []) {ps : List Text}
    (hps : ∀ p ∈ ps, isBalanced p = true ∧ OnlyInBraces isSep 0 p ∧ p ≠ []) :
    nonemptyParts isSep (Text.join t ps) = ps := by
  rw [nonemptyParts_join hsep ht hne fun p hp => (hps p hp).1]
  calc ps.flatMap (nonemptyParts isSep)
      = ps.flatMap fun p => [p] :=
        List.flatMap_congr fun p hp =>
          nonemptyParts_of_onlyInBraces (hps p hp).1 (hps p hp).2.1 (hps p hp).2.2
    _ = ps := List.flatMap_singleton' ps

/-! ## Words -/

/-- Whether a character stands between words: white space or a tie. -/
def isGap (c : Char) : Bool := Unicode.isWhiteSpace c || c == '~'

theorem splitWords_eq_nonemptyParts (s : Text) : splitWords s = nonemptyParts isGap s := rfl

theorem isBrace_eq_false_of_isGap (c : Char) (h : isGap c = true) : isBrace c = false :=
  isBrace_eq_false_of (by decide) (by decide) h

/-- Words of a balanced text have gaps only inside braces. -/
theorem word_of_mem_splitWords {w : Text} (hs : isBalanced s = true) (hw : w ∈ splitWords s) :
    isBalanced w = true ∧ OnlyInBraces isGap 0 w ∧ w ≠ [] := by
  obtain ⟨hmem, hne⟩ := List.mem_filter.1 hw
  exact ⟨isBalanced_of_mem_splitWords hs hw,
    (place_of_mem_splitAtLevel0 isBrace_eq_false_of_isGap hs hmem).1, of_decide_eq_true hne⟩

theorem isGap_of_mem_of_isBlank (h : s.isBlank = true) : ∀ c ∈ s, isGap c = true := by
  intro c hc
  rw [isGap, List.all_eq_true.1 h c hc, Bool.true_or]

/-- White space at the ends of a text is around it. -/
theorem exists_eq_append_trim (s : Text) :
    ∃ a b : Text, a.isBlank = true ∧ b.isBlank = true ∧ s = a ++ s.trim ++ b := by
  have hstart : ∀ t : Text, ∃ a : Text, a.isBlank = true ∧ t = a ++ t.trimStart := fun t =>
    ⟨t.takeWhile Unicode.isWhiteSpace, List.all_takeWhile, List.takeWhile_append_dropWhile.symm⟩
  obtain ⟨a, ha, hs⟩ := hstart s
  obtain ⟨b, hb, hrest⟩ := hstart s.trimStart.reverse
  refine ⟨a, b.reverse, ha, by rw [Text.isBlank, List.all_reverse]; exact hb, ?_⟩
  have hend : s.trimStart = s.trim ++ b.reverse := by
    rw [← List.reverse_reverse s.trimStart, hrest, List.reverse_append]
    rfl
  rw [List.append_assoc, ← hend, ← hs]

/-- Where no white space starts a text, none is left out there. -/
theorem trimStart_eq_self {s : Text} (h : ∀ c ∈ s.head?, Unicode.isWhiteSpace c = false) :
    s.trimStart = s := by
  cases s with
  | nil => rfl
  | cons c s => exact List.dropWhile_cons_of_neg (by simp [h c rfl])

theorem isWhiteSpace_head?_trimStart (s : Text) :
    ∀ c ∈ s.trimStart.head?, Unicode.isWhiteSpace c = false :=
  fun _ => Text.eq_false_of_mem_head?_dropWhile

/-- White space around a text is left out once. -/
theorem trim_trim (s : Text) : s.trim.trim = s.trim := by
  have hend : s.trim.trimEnd = s.trim := by
    rw [Text.trim, Text.trimEnd, Text.trimEnd, List.reverse_reverse,
      trimStart_eq_self (isWhiteSpace_head?_trimStart _)]
  obtain ⟨b, hb⟩ : s.trim <+: s.trimStart := by
    rw [Text.trim, Text.trimEnd, ← List.reverse_suffix, List.reverse_reverse]
    exact List.dropWhile_suffix _
  have hstart : ∀ c ∈ s.trim.head?, Unicode.isWhiteSpace c = false := by
    intro c hc
    refine isWhiteSpace_head?_trimStart s c ?_
    rw [← hb, List.head?_append, Option.mem_def.1 hc]
    rfl
  rw [Text.trim, trimStart_eq_self hstart, hend]

theorem splitWords_append_of_isBlank (ht : t.isBlank = true) (s : Text) :
    splitWords (t ++ s) = splitWords s := by
  rw [splitWords_eq_nonemptyParts, splitWords_eq_nonemptyParts,
    nonemptyParts_append_of_separators isBrace_eq_false_of_isGap
      (isGap_of_mem_of_isBlank ht)]

theorem splitWords_append_isBlank (hs : isBalanced s = true) (ht : t.isBlank = true) :
    splitWords (s ++ t) = splitWords s := by
  cases t with
  | nil => rw [List.append_nil]
  | cons c t =>
    have hgap := isGap_of_mem_of_isBlank ht
    have hparts := nonemptyParts_append_separators_append
      isBrace_eq_false_of_isGap hs hgap (List.cons_ne_nil c t) []
    rw [List.append_nil] at hparts
    exact hparts.trans (List.append_nil _)

theorem splitWords_trim (hs : isBalanced s = true) : splitWords s.trim = splitWords s := by
  obtain ⟨a, b, ha, hb, heq⟩ := exists_eq_append_trim s
  calc splitWords s.trim
      = splitWords (s.trim ++ b) := (splitWords_append_isBlank (isBalanced_trim hs) hb).symm
    _ = splitWords (a ++ (s.trim ++ b)) := (splitWords_append_of_isBlank ha _).symm
    _ = splitWords s := by rw [← List.append_assoc, ← heq]

/-! ## Segments -/

def segmentWords (s : Text) : List (List Text) := (splitAtLevel0 (· == ',') s).map splitWords

theorem isBrace_eq_false_of_isComma (c : Char) (h : (c == ',') = true) : isBrace c = false :=
  isBrace_eq_false_of (P := (· == ',')) rfl rfl h

theorem no_comma_of_isBlank (h : s.isBlank = true) : ∀ c ∈ s, (c == ',') = false := by
  intro c hc
  rw [beq_eq_false_iff_ne]
  rintro rfl
  exact absurd (List.all_eq_true.1 h _ hc) (by decide)

theorem isBalanced_of_isBlank (h : s.isBlank = true) : isBalanced s = true :=
  isBalanced_of_no_braces fun c hc =>
    isBrace_eq_false_of_isWhiteSpace (List.all_eq_true.1 h c hc)

theorem segmentWords_append_of_isBlank (ht : t.isBlank = true) (s : Text) :
    segmentWords (t ++ s) = segmentWords s := by
  obtain ⟨first, others, hsplit⟩ :=
    List.exists_cons_of_ne_nil (splitAtLevel0From_ne_nil (· == ',') 0 s)
  have hsplit : splitAtLevel0 (· == ',') s = first :: others := hsplit
  have hin := onlyInBraces_of_no_separator (no_comma_of_isBlank ht) 0
  rw [segmentWords, splitAtLevel0_append (isBalanced_of_isBlank ht) hin hsplit, List.map_cons,
    splitWords_append_of_isBlank ht, segmentWords, hsplit, List.map_cons]

theorem segmentWords_append_isBlank (hs : isBalanced s = true) (ht : t.isBlank = true) :
    segmentWords (s ++ t) = segmentWords s := by
  obtain ⟨parts, last, hparts, hlonger⟩ :=
    splitAtLevel0From_append_of_no_separator (no_comma_of_isBlank ht) 0 s
  have hparts : splitAtLevel0 (· == ',') s = parts ++ [last] := hparts
  have hlonger : splitAtLevel0 (· == ',') (s ++ t) = parts ++ [last ++ t] := hlonger
  have hlast : isBalanced last = true :=
    isBalanced_of_mem_splitAtLevel0 hs (by rw [hparts]; simp)
  rw [segmentWords, segmentWords, hparts, hlonger, List.map_append, List.map_append,
    List.map_singleton, List.map_singleton, splitWords_append_isBlank hlast ht]

/-- **White space around a name belongs to none of its words.** -/
theorem segmentWords_trim (hs : isBalanced s = true) : segmentWords s.trim = segmentWords s := by
  obtain ⟨a, b, ha, hb, heq⟩ := exists_eq_append_trim s
  calc segmentWords s.trim
      = segmentWords (s.trim ++ b) := (segmentWords_append_isBlank (isBalanced_trim hs) hb).symm
    _ = segmentWords (a ++ (s.trim ++ b)) := (segmentWords_append_of_isBlank ha _).symm
    _ = segmentWords s := by rw [← List.append_assoc, ← heq]

/-- The words of segments that are trimmed. -/
theorem map_splitWords_splitSegments (hs : isBalanced s = true) :
    (splitSegments s).map splitWords = segmentWords s := by
  rw [splitSegments, segmentWords, List.map_map]
  exact List.map_congr_left fun p hp => splitWords_trim (isBalanced_of_mem_splitAtLevel0 hs hp)

/-- **Segments that are joined with commas keep their words.** -/
theorem segmentWords_join {ps : List Text} (hne : ps ≠ [])
    (hps : ∀ p ∈ ps, isBalanced p = true ∧ OnlyInBraces (· == ',') 0 p) :
    segmentWords (Text.join ", ".toList ps) = ps.map splitWords := by
  obtain ⟨p, ps, rfl⟩ := List.exists_cons_of_ne_nil hne
  clear hne
  induction ps generalizing p with
  | nil =>
    have hp := hps p List.mem_cons_self
    rw [Text.join, segmentWords, splitAtLevel0_of_onlyInBraces hp.1 hp.2]
  | cons q ps ih =>
    rw [List.forall_mem_cons] at hps
    have hp := hps.1
    have hjoin : Text.join ", ".toList (p :: q :: ps) =
        p ++ ',' :: ([' '] ++ Text.join ", ".toList (q :: ps)) := by
      rw [join_cons_cons, List.append_assoc]
      rfl
    rw [hjoin]
    calc segmentWords (p ++ ',' :: ([' '] ++ Text.join ", ".toList (q :: ps)))
        = segmentWords p ++ segmentWords ([' '] ++ Text.join ", ".toList (q :: ps)) := by
          rw [segmentWords, splitAtLevel0_append_cons hp.1 rfl rfl, List.map_append, segmentWords,
            segmentWords]
      _ = [splitWords p] ++ (q :: ps).map splitWords := by
          rw [segmentWords_append_of_isBlank (by decide), ih q hps.2, segmentWords,
            splitAtLevel0_of_onlyInBraces hp.1 hp.2, List.map_singleton]

/-! ## Words of segments -/

/-- A word that stands in a segment of a name. -/
structure IsWord (w : Text) : Prop where
  ne_nil : w ≠ []
  balanced : isBalanced w = true
  gaps : OnlyInBraces isGap 0 w
  commas : OnlyInBraces (· == ',') 0 w

/-- **The words of the segments of a balanced name.** -/
theorem isWord_of_mem_segmentWords (hs : isBalanced s = true) {words : List Text} {w : Text}
    (hwords : words ∈ segmentWords s) (hw : w ∈ words) : IsWord w := by
  obtain ⟨p, hp, rfl⟩ := List.mem_map.1 hwords
  have hbalanced := isBalanced_of_mem_splitAtLevel0 hs hp
  have hpcommas := (place_of_mem_splitAtLevel0 isBrace_eq_false_of_isComma hs hp).1
  obtain ⟨hwbalanced, hgaps, hne⟩ := word_of_mem_splitWords hbalanced hw
  exact {
    ne_nil := hne
    balanced := hwbalanced
    gaps := hgaps
    commas := hpcommas.of_mem_splitAtLevel0 isBrace_eq_false_of_isGap hbalanced
      (List.mem_filter.1 hw).1 }

/-- **Words that are joined with blanks are found again.** -/
theorem splitWords_join {words : List Text} (h : ∀ w ∈ words, IsWord w) :
    splitWords (Text.join [' '] words) = words :=
  nonemptyParts_join_of_onlyInBraces isBrace_eq_false_of_isGap
    (List.forall_mem_singleton.2 rfl) (List.cons_ne_nil _ _) fun w hw =>
      ⟨(h w hw).balanced, (h w hw).gaps, (h w hw).ne_nil⟩

end Bibliography.Tex
