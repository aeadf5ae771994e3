import Bibliography.Text.Wrapped

set_option autoImplicit false

/-! # Words

The words of a text are its parts between white space. They do not depend on how much white space
there is, so breaking a line, which takes out white space at a break and puts a newline and an
indent there, keeps them: the lines of `wrap` together have the words of the line, in its order.
The characters that are no white space are those of the words, so they stay as well.

Main statement: `words_unlines_wrap`.
-/

namespace Bibliography.Text

/-- The words of a text: what stands between its white space. -/
def words (s : Text) : List Text := (splitWhere Unicode.isWhiteSpace s).filter (· ≠ [])

/-- Lines one after the other, each with its newline. -/
def unlines (lines : List Text) : Text := lines.flatMap (· ++ ['\n'])

/-! ## Parts -/

theorem splitWhere_ne_nil (p : Char → Bool) (s : Text) : splitWhere p s ≠ [] := by
  cases s with
  | nil => simp [splitWhere]
  | cons c rest =>
    rw [splitWhere]
    split
    · simp
    · split <;> simp

/-- A separator ends a part, whatever stands around it. -/
theorem splitWhere_append_cons {p : Char → Bool} {c : Char} (hc : p c = true) (s t : Text) :
    splitWhere p (s ++ c :: t) = splitWhere p s ++ splitWhere p t := by
  induction s with
  | nil =>
    obtain ⟨part, parts, hparts⟩ := List.exists_cons_of_ne_nil (splitWhere_ne_nil p t)
    simp [splitWhere, hparts, hc]
  | cons d s ih =>
    obtain ⟨part, parts, hparts⟩ := List.exists_cons_of_ne_nil (splitWhere_ne_nil p s)
    rw [hparts] at ih
    simp only [List.cons_append, splitWhere, ih, hparts]
    split <;> rfl

/-- The parts together are the text without its separators. -/
theorem flatten_splitWhere (p : Char → Bool) (s : Text) :
    (splitWhere p s).flatten = s.filter (!p ·) := by
  induction s with
  | nil => rfl
  | cons c s ih =>
    obtain ⟨part, parts, hparts⟩ := List.exists_cons_of_ne_nil (splitWhere_ne_nil p s)
    rw [hparts] at ih
    simp only [splitWhere, hparts]
    by_cases hc : p c = true
    · simpa [hc] using ih
    · simpa [hc] using ih

/-- The last part is empty only if nothing stands behind a separator. -/
theorem of_getLast?_splitWhere {p : Char → Bool} {s : Text}
    (h : (splitWhere p s).getLast? = some []) : s = [] ∨ ∃ c, s.getLast? = some c ∧ p c = true := by
  induction s with
  | nil => exact Or.inl rfl
  | cons c s ih =>
    obtain ⟨part, parts, hparts⟩ := List.exists_cons_of_ne_nil (splitWhere_ne_nil p s)
    simp only [splitWhere, hparts] at h
    rw [hparts] at ih
    right
    by_cases hc : p c = true
    · rw [if_pos hc, List.getLast?_cons_cons] at h
      obtain rfl | ⟨d, hd, hpd⟩ := ih h
      · exact ⟨c, rfl, hc⟩
      · exact ⟨d, by simp [List.getLast?_cons, hd], hpd⟩
    · rw [if_neg hc] at h
      cases parts with
      | nil => cases h
      | cons next parts =>
        rw [List.getLast?_cons_cons] at h
        obtain rfl | ⟨d, hd, hpd⟩ := ih (by rw [List.getLast?_cons_cons]; exact h)
        · cases hparts
        · exact ⟨d, by simp [List.getLast?_cons, hd], hpd⟩

/-- A text cut at a character, with something else done to the parts than to the character. -/
theorem join_splitWhere (c : Char) (sep : Text) (f : Char → Text) (s : Text) :
    join sep ((splitWhere (· == c) s).map (List.flatMap f)) =
      s.flatMap fun d => if d = c then sep else f d := by
  induction s with
  | nil => rfl
  | cons d s ih =>
    obtain ⟨part, parts, hparts⟩ := List.exists_cons_of_ne_nil (splitWhere_ne_nil (· == c) s)
    rw [List.flatMap_cons, ← ih]
    simp only [splitWhere, hparts, beq_iff_eq]
    by_cases hd : d = c
    · rw [if_pos hd, if_pos hd]
      rfl
    · rw [if_neg hd, if_neg hd]
      cases parts with
      | nil => exact List.flatMap_cons
      | cons next parts =>
        simp only [List.map_cons, join, List.flatMap_cons, List.append_assoc]

/-! ## Words -/

@[simp] theorem words_nil : words [] = [] := rfl

/-- White space between two texts parts their words. -/
theorem words_append_cons {c : Char} (hc : Unicode.isWhiteSpace c = true) (s t : Text) :
    words (s ++ c :: t) = words s ++ words t := by
  rw [words, splitWhere_append_cons hc, List.filter_append, words, words]

theorem words_cons_of_isWhiteSpace {c : Char} (hc : Unicode.isWhiteSpace c = true) (t : Text) :
    words (c :: t) = words t :=
  words_append_cons hc [] t

/-- White space at the start of a text belongs to no word. -/
theorem words_append_of_isBlank {s : Text} (hs : s.isBlank = true) (t : Text) :
    words (s ++ t) = words t := by
  induction s with
  | nil => rfl
  | cons c s ih =>
    rw [isBlank, List.all_cons, Bool.and_eq_true] at hs
    rw [List.cons_append, words_cons_of_isWhiteSpace hs.1, ih hs.2]

theorem words_trimStart (s : Text) : words (trimStart s) = words s := by
  have hblank : isBlank (s.takeWhile Unicode.isWhiteSpace) = true := List.all_takeWhile
  calc words (trimStart s)
      = words (s.takeWhile Unicode.isWhiteSpace ++ trimStart s) :=
        (words_append_of_isBlank hblank _).symm
    _ = words s := by rw [trimStart, List.takeWhile_append_dropWhile]

/-- The words together are the characters of the text that are no white space. -/
theorem flatten_words (s : Text) : (words s).flatten = s.filter (!Unicode.isWhiteSpace ·) := by
  have hfilter : ∀ parts : List Text, (parts.filter (· ≠ [])).flatten = parts.flatten := by
    intro parts
    induction parts with
    | nil => rfl
    | cons part parts ih => cases part <;> simp_all
  rw [words, hfilter, flatten_splitWhere]

theorem words_unlines (lines : List Text) : words (unlines lines) = lines.flatMap words := by
  induction lines with
  | nil => rfl
  | cons line lines ih =>
    have hline : unlines (line :: lines) = line ++ '\n' :: unlines lines := by simp [unlines]
    rw [hline, words_append_cons (by decide), ih, List.flatMap_cons]

/-! ## Wrapped lines -/

/-- A line is broken at white space: if a place that was chosen before lies at white space of the
whole text, so does the place that is chosen in the end. -/
theorem isWhiteSpace_of_breakFrom {room place : Nat} {chosen : Option Nat} {inRun : Bool}
    (before : Text) {rest : Text} (hplace : before.length = place)
    (hchosen : ∀ n, chosen = some n →
      ∃ c t, (before ++ rest).drop n = c :: t ∧ Unicode.isWhiteSpace c = true)
    {n : Nat} (h : breakFrom room chosen place inRun rest = some n) :
    ∃ c t, (before ++ rest).drop n = c :: t ∧ Unicode.isWhiteSpace c = true := by
  induction rest generalizing before chosen place inRun with
  | nil => exact hchosen n h
  | cons c rest ih =>
    have hhere : (before ++ c :: rest).drop place = c :: rest := by simp [← hplace]
    have hassoc : before ++ c :: rest = (before ++ [c]) ++ rest := by simp
    have hlength : (before ++ [c]).length = place + 1 := by simp [hplace]
    rw [breakFrom] at h
    split at h
    · exact hchosen n h
    · split at h
      · rw [hassoc] at hchosen ⊢
        exact ih _ hlength hchosen h
      · next hblank =>
        have hc : Unicode.isWhiteSpace c = true := by simpa using hblank
        split at h
        · rw [hassoc] at hchosen ⊢
          exact ih _ hlength hchosen h
        · split at h
          · -- the place where the scan stands is chosen, and it goes on from there
            rw [hassoc]
            refine ih _ hlength ?_ h
            rintro m ⟨⟩
            exact ⟨c, rest, hassoc ▸ hhere, hc⟩
          · cases h
            exact ⟨c, rest, hhere, hc⟩

/-- Breaking a text keeps its words. -/
theorem words_of_chooseBreak? {room : Nat} {s head tail : Text}
    (h : chooseBreak? room s = some (head, tail)) : words head ++ words tail = words s := by
  obtain ⟨n, hn, hparts⟩ := Option.map_eq_some_iff.1 h
  obtain ⟨rfl, rfl⟩ := Prod.mk.inj hparts
  obtain ⟨c, t, hdrop, hc⟩ := isWhiteSpace_of_breakFrom [] rfl (by simp) hn
  rw [List.nil_append] at hdrop
  calc words (s.take n) ++ words (trimStart (s.drop n))
      = words (s.take n) ++ words t := by
        rw [words_trimStart, hdrop, words_cons_of_isWhiteSpace hc]
    _ = words (s.take n ++ s.drop n) := by rw [hdrop, words_append_cons hc]
    _ = words s := by rw [List.take_append_drop]

theorem flatMap_words_wrapAfter (width : Nat) (lead s : Text) (hlead : lead.isBlank = true) :
    (wrapAfter width lead s).flatMap words = words s := by
  fun_induction wrapAfter width lead s with
  | case1 lead s hfits => simp [words_append_of_isBlank hlead]
  | case2 lead hfits =>
    simpa using words_append_of_isBlank hlead []
  | case3 lead c rest hfits hbreak => simp [words_append_of_isBlank hlead]
  | case4 lead c rest head tail hbreak hfits ih =>
    rw [← words_of_chooseBreak? hbreak, List.flatMap_cons, words_append_of_isBlank hlead]
    split
    · next htail => simp [htail]
    · rw [ih (by decide)]

/-- **Wrapping keeps the words**: the lines together have those of the line, in its order. -/
theorem words_unlines_wrap (line : Text) (width : Nat) :
    words (unlines (line.wrap width)) = words line := by
  rw [words_unlines, wrap, flatMap_words_wrapAfter width [] line rfl]

end Bibliography.Text
