import Bibliography.Proofs.Unicode.Casing
import Bibliography.Text.Basic

set_option autoImplicit false

/-! # Folding to lower case

The table of lower-case letters leads to characters that it leads no further, and none of them is an
ASCII character other than a letter. So folding twice is folding once (`foldCase_foldCase`), and a
character that is no letter can not come about by folding (`mem_of_mem_foldCase`): what ends a name
in the text of a style, or separates the parts of an entry, is in a folded text only where it was
before.
-/

namespace Bibliography.Unicode

/-! ## ASCII letters -/

theorem isUpper_iff {c : Char} : c.isUpper = true ↔ 65 ≤ c.toNat ∧ c.toNat ≤ 90 := by
  delta Char.isUpper
  simp [UInt32.le_iff_toNat_le]

theorem isLower_iff {c : Char} : c.isLower = true ↔ 97 ≤ c.toNat ∧ c.toNat ≤ 122 := by
  delta Char.isLower
  simp [UInt32.le_iff_toNat_le]

theorem isDigit_iff {c : Char} : c.isDigit = true ↔ 48 ≤ c.toNat ∧ c.toNat ≤ 57 := by
  simp [Char.isDigit, UInt32.le_iff_toNat_le]

theorem isAlpha_eq (c : Char) : c.isAlpha = (c.isUpper || c.isLower) := rfl

theorem toNat_toLower {c : Char} (h : c.isUpper = true) : c.toLower.toNat = c.toNat + 32 := by
  have hrange : 65 ≤ c.toNat ∧ c.toNat ≤ 90 := isUpper_iff.1 h
  have hvalue : c.val ≥ 'A'.val ∧ c.val ≤ 'Z'.val := hrange
  delta Char.toLower
  rw [dif_pos hvalue]
  show (c.toNat + 32) % 4294967296 = c.toNat + 32
  omega

theorem isLower_toLower {c : Char} (h : c.isUpper = true) : c.toLower.isLower = true := by
  have hrange : 65 ≤ c.toNat ∧ c.toNat ≤ 90 := isUpper_iff.1 h
  rw [isLower_iff, toNat_toLower h]
  omega

theorem toLower_of_isUpper_eq_false {c : Char} (h : c.isUpper = false) : c.toLower = c := by
  delta Char.toLower
  rw [dif_neg]
  intro hrange
  rw [isUpper_iff.2 hrange] at h
  cases h

theorem isAlpha_toLower (c : Char) : c.toLower.isAlpha = c.isAlpha := by
  cases hupper : c.isUpper with
  | true => rw [isAlpha_eq, isAlpha_eq, isLower_toLower hupper, hupper, Bool.or_true, Bool.true_or]
  | false => rw [toLower_of_isUpper_eq_false hupper]

/-! ## Single characters -/

/-- An ASCII character that is no capital is its own lower case. -/
theorem lowerOf_of_ascii {c : Char} (hascii : c.toNat < 0x80) (hcapital : c.isUpper = false) :
    lowerOf c = [c] := by
  rw [(lowerOf_upperOf_of_ascii hascii).1, toLower_of_isUpper_eq_false hcapital]

/-- The codes of ASCII characters that are no lower-case letters. -/
def IsMark (d : Char) : Prop := d.toNat < 0x61 ∨ 0x7A < d.toNat ∧ d.toNat < 0x80

theorem eq_of_mem_lowerOf {c d : Char} (h : d ∈ lowerOf c) (hd : IsMark d) : d = c := by
  have hspans : leadOutside lowerRuns lowerExpansions [⟨0, 0x60, 1⟩, ⟨0x7B, 0x7F, 1⟩] = true := by
    decide +kernel
  refine tablesSettle_lower.eq_of_mem_mapCase hspans h ?_
  rw [IsMark] at hd
  simp only [InSpans, List.mem_cons, List.not_mem_nil, or_false, exists_eq_or_imp, exists_eq_left]
  omega

/-! ## Texts -/

/-- A character of a folded text is of the lower case of a character, or a final sigma. -/
theorem exists_of_mem_foldCaseAfter {before s : List Char} {d : Char}
    (h : d ∈ foldCaseAfter before s) : ∃ c ∈ s, d ∈ lowerOf c ∨ d = 'ς' := by
  induction s generalizing before with
  | nil => cases h
  | cons c s ih =>
    rw [foldCaseAfter, List.mem_append] at h
    rcases h with h | h
    · refine ⟨c, List.mem_cons_self, ?_⟩
      by_cases hsigma : c = 'Σ'
      · rw [if_pos hsigma] at h
        split at h
        · exact Or.inr (List.mem_singleton.1 h)
        · rw [List.mem_singleton.1 h, hsigma]
          exact Or.inl (by decide)
      · rw [if_neg hsigma] at h
        exact Or.inl h
    · obtain ⟨c', hc', hd⟩ := ih h
      exact ⟨c', List.mem_cons_of_mem _ hc', hd⟩

/-- Folding leaves the characters that are their own lower case. -/
theorem foldCaseAfter_eq_self {before s : List Char} (h : ∀ c ∈ s, lowerOf c = [c]) :
    foldCaseAfter before s = s := by
  induction s generalizing before with
  | nil => rfl
  | cons c s ih =>
    obtain ⟨hc, hs⟩ := List.forall_mem_cons.1 h
    have hsigma : c ≠ 'Σ' := by
      rintro rfl
      exact absurd hc (by decide)
    rw [foldCaseAfter, if_neg hsigma, hc, ih hs]
    rfl

/-- The characters of a folded text are their own lower case. -/
theorem lowerOf_of_mem_foldCase {s : List Char} {d : Char} (h : d ∈ foldCase s) :
    lowerOf d = [d] := by
  obtain ⟨c, -, hd | rfl⟩ := exists_of_mem_foldCaseAfter h
  · exact lowerOf_of_mem_lowerOf hd
  · decide

/-- **Folding twice is folding once.** -/
theorem foldCase_foldCase (s : List Char) : foldCase (foldCase s) = foldCase s :=
  foldCaseAfter_eq_self fun _ hd => lowerOf_of_mem_foldCase hd

/-- An ASCII text without capitals is its own folding. -/
theorem foldCase_of_ascii {s : List Char} (h : ∀ c ∈ s, c.toNat < 0x80 ∧ c.isUpper = false) :
    foldCase s = s :=
  foldCaseAfter_eq_self fun c hc => lowerOf_of_ascii (h c hc).1 (h c hc).2

/-- **Only letters come about by folding.** -/
theorem mem_of_mem_foldCase {s : List Char} {d : Char} (h : d ∈ foldCase s) (hd : IsMark d) :
    d ∈ s := by
  obtain ⟨c, hc, hlower | rfl⟩ := exists_of_mem_foldCaseAfter h
  · exact eq_of_mem_lowerOf hlower hd ▸ hc
  · exact absurd hd (by unfold IsMark; decide)

theorem foldCase_ne_nil {s : List Char} (h : s ≠ []) : foldCase s ≠ [] := by
  obtain ⟨c, s, rfl⟩ := List.exists_cons_of_ne_nil h
  rw [foldCase, foldCaseAfter]
  by_cases hsigma : c = 'Σ'
  · rw [if_pos hsigma]
    split <;> exact List.cons_ne_nil _ _
  · rw [if_neg hsigma]
    exact List.append_ne_nil_of_left_ne_nil (lowerOf_ne_nil c) _

/-- The first character of a folded text comes from the first one. -/
theorem head?_foldCase {s : List Char} {d : Char} (h : (foldCase s).head? = some d)
    (hd : IsMark d) : s.head? = some d := by
  cases s with
  | nil => cases h
  | cons c s =>
    have hmem : d ∈ lowerOf c ∨ d = 'ς' ∨ d = 'σ' := by
      rw [foldCase, foldCaseAfter] at h
      by_cases hsigma : c = 'Σ'
      · rw [if_pos hsigma] at h
        split at h
        · exact Or.inr (Or.inl (Option.some.inj h).symm)
        · exact Or.inr (Or.inr (Option.some.inj h).symm)
      · obtain ⟨e, es, hlower⟩ := List.exists_cons_of_ne_nil (lowerOf_ne_nil c)
        rw [if_neg hsigma, hlower] at h
        rw [hlower, ← Option.some.inj h]
        exact Or.inl List.mem_cons_self
    rcases hmem with hlower | rfl | rfl
    · rw [eq_of_mem_lowerOf hlower hd]
      rfl
    · exact absurd hd (by unfold IsMark; decide)
    · exact absurd hd (by unfold IsMark; decide)

end Bibliography.Unicode
