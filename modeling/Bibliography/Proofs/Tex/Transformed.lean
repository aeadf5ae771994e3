import Bibliography.Proofs.Tex.Pieces
import Bibliography.Proofs.Tex.Scan
import Bibliography.Proofs.Unicode.Casing
import Bibliography.Tex.Case
import Bibliography.Tex.Excerpt
import Bibliography.Tex.Purified
import Bibliography.Tex.Word

set_option autoImplicit false

/-! # What operations on texts do to braces

A change of case keeps the braces where they are, purifying takes them all out, a period at the end
adds none. The first units of a balanced text are a start of it, behind which its open braces are
closed. So all four make balanced texts from balanced texts.
-/

namespace Bibliography.Tex

open NameFormat (isBrace)

/-! ## Change of case -/

/-- A delimiter stands for itself. -/
theorem convert_of_isDelimiter {mode : CaseMode} {c : Char} (h : Unicode.IsDelimiter c) :
    mode.convert c = [c] := by
  cases mode with
  | upper => exact (Unicode.lowerOf_upperOf_of_isDelimiter h).2
  | lower | title => exact (Unicode.lowerOf_upperOf_of_isDelimiter h).1

/-- No other character becomes a delimiter. -/
theorem eq_of_mem_convert {mode : CaseMode} {c d : Char} (h : d ∈ mode.convert c)
    (hd : Unicode.IsDelimiter d) : d = c := by
  cases mode with
  | upper => exact Unicode.eq_of_isDelimiter (Or.inr h) hd
  | lower | title => exact Unicode.eq_of_isDelimiter (Or.inl h) hd

theorem isDelimiter_of_isBrace {c : Char} (h : isBrace c = true) : Unicode.IsDelimiter c := by
  rcases eq_of_isBrace h with rfl | rfl <;> decide

/-- **No character but a brace becomes a brace by a change of case.** -/
theorem isBrace_of_mem_convert {mode : CaseMode} {c d : Char} (hc : isBrace c = false)
    (hd : d ∈ mode.convert c) : isBrace d = false := by
  cases hbrace : isBrace d with
  | false => rfl
  | true => rw [← hbrace, eq_of_mem_convert hd (isDelimiter_of_isBrace hbrace), hc]

theorem filter_isBrace_convert (mode : CaseMode) {c : Char} (hc : isBrace c = false) :
    (mode.convert c).filter isBrace = [c].filter isBrace := by
  have hnone : (mode.convert c).filter isBrace = [] :=
    List.filter_eq_nil_iff.2 fun d hd => by simp [isBrace_of_mem_convert hc hd]
  rw [hnone, List.filter_cons_of_neg (by simp [hc]), List.filter_nil]

/-- Rows of parts have the same braces if the parts do. -/
theorem filter_isBrace_flatMap {α : Type} {xs : List α} {f g : α → Text}
    (h : ∀ x ∈ xs, (f x).filter isBrace = (g x).filter isBrace) :
    (xs.flatMap f).filter isBrace = (xs.flatMap g).filter isBrace := by
  induction xs with
  | nil => rfl
  | cons x xs ih =>
    rw [List.forall_mem_cons] at h
    rw [List.flatMap_cons, List.flatMap_cons, List.filter_append, List.filter_append, h.1, ih h.2]

theorem filter_isBrace_changeCase_unit (mode : CaseMode) (st : TitleState) {u : TexUnit}
    (hu : ∀ c, u.kind = .char c → isBrace c = false) :
    (u.changeCase mode st).filter isBrace = u.text.filter isBrace := by
  obtain ⟨kind, level⟩ := u
  cases kind with
  | opening | closing => rfl
  | char c =>
    simp only [TexUnit.changeCase, TexUnit.text]
    split
    · rfl
    · split
      · rfl
      · exact filter_isBrace_convert mode (hu c rfl)
  | special raw =>
    have hpieces : ∀ p ∈ specialPieces raw, ∀ keep,
        (p.changeCase mode keep).filter isBrace = p.text.filter isBrace := by
      intro p hp keep
      cases p with
      | brace c | command name => rfl
      | char c =>
        simp only [SpecialPiece.changeCase, SpecialPiece.text]
        split
        · rfl
        · exact filter_isBrace_convert mode (isBrace_of_char_mem_specialPieces hp)
    calc ((specialPieces raw).flatMap
            (SpecialPiece.changeCase mode (mode = .title && st.keepNext))).filter isBrace
        = ((specialPieces raw).flatMap SpecialPiece.text).filter isBrace :=
          filter_isBrace_flatMap fun p hp => hpieces p hp _
      _ = raw.filter isBrace := by rw [texts_specialPieces]

/-- **A change of case keeps the braces where they are.** -/
theorem filter_isBrace_changeCase (s : Text) (mode : CaseMode) :
    (changeCase s mode).filter isBrace = s.filter isBrace := by
  have hunits : ∀ (us : List TexUnit) (st : TitleState),
      (∀ u ∈ us, ∀ c, u.kind = .char c → isBrace c = false) →
        (changeUnits mode st us).filter isBrace = (TexUnit.texts us).filter isBrace := by
    intro us
    induction us with
    | nil => exact fun _ _ => rfl
    | cons u us ih =>
      intro st hus
      rw [List.forall_mem_cons] at hus
      rw [changeUnits, List.filter_append, filter_isBrace_changeCase_unit mode st hus.1,
        ih _ hus.2, texts_cons, List.filter_append]
  rw [changeCase, hunits (scan s) .start fun u hu c hc => isBrace_of_char_mem_scan hu hc,
    texts_scan]

theorem isBalanced_changeCase {s : Text} (hs : isBalanced s = true) (mode : CaseMode) :
    isBalanced (changeCase s mode) = true := by
  rw [isBalanced_congr (filter_isBrace_changeCase s mode), hs]

/-! ## Purified texts -/

/-- The names of letters of their own are made of letters. -/
theorem isAlphanumeric_of_isForeignLetter {name : Text} (h : isForeignLetter name = true) {c : Char}
    (hc : c ∈ name) : Unicode.isAlphanumeric c = true := by
  have hall : foreignLetters.all (fun letter => letter.all Unicode.isAlphanumeric) = true := by
    decide
  exact List.all_eq_true.1 (List.all_eq_true.1 hall name (List.contains_iff_mem.1 h)) c hc

theorem isAlphanumeric_of_mem_purified {p : SpecialPiece} {c : Char} (hc : c ∈ p.purified) :
    Unicode.isAlphanumeric c = true := by
  cases p with
  | brace d => cases hc
  | command name =>
    rw [SpecialPiece.purified] at hc
    split at hc
    · next hname => exact isAlphanumeric_of_isForeignLetter hname hc
    · cases hc
  | char d =>
    rw [SpecialPiece.purified] at hc
    split at hc
    · next hd => exact List.mem_singleton.1 hc ▸ hd
    · cases hc

/-- **A purified text is made of letters, numbers and blanks.** -/
theorem isAlphanumeric_or_eq_blank_of_mem_purify {s : Text} {c : Char} (hc : c ∈ purify s) :
    Unicode.isAlphanumeric c = true ∨ c = ' ' := by
  obtain ⟨⟨kind, level⟩, -, hc⟩ := List.mem_flatMap.1 hc
  cases kind with
  | opening | closing => cases hc
  | char d =>
    change c ∈ purifiedChar d at hc
    rw [purifiedChar] at hc
    split at hc
    · next hd => exact Or.inl (List.mem_singleton.1 hc ▸ hd)
    · split at hc
      · exact Or.inr (List.mem_singleton.1 hc)
      · cases hc
  | special raw =>
    obtain ⟨p, -, hc⟩ := List.mem_flatMap.1 hc
    exact Or.inl (isAlphanumeric_of_mem_purified hc)

/-- **A purified text has no braces.** -/
theorem isBrace_of_mem_purify {s : Text} {c : Char} (hc : c ∈ purify s) : isBrace c = false := by
  obtain halphanumeric | rfl := isAlphanumeric_or_eq_blank_of_mem_purify hc
  · exact isBrace_eq_false_of (by decide) (by decide) halphanumeric
  · rfl

theorem isBalanced_purify (s : Text) : isBalanced (purify s) = true :=
  isBalanced_of_no_braces fun _ hc => isBrace_of_mem_purify hc

/-! ## Periods -/

theorem isBalanced_addPeriod {s : Text} (hs : isBalanced s = true) :
    isBalanced (addPeriod s) = true := by
  rw [addPeriod]
  split
  · exact hs
  · split
    · exact hs
    · exact isBalanced_append hs rfl

/-! ## The start of a text -/

/-- What is kept is a start of the row; opening braces that wait stand before it. -/
theorem keepUnits_prefix (pending : Text) (n : Nat) (us : List TexUnit) :
    keepUnits pending n us <+: pending ++ TexUnit.texts us := by
  induction us generalizing pending n with
  | nil => simp [keepUnits, TexUnit.texts]
  | cons u us ih =>
    obtain ⟨kind, level⟩ := u
    have htail : ∀ n, keepUnits [] n us <+: TexUnit.texts us := fun n => by simpa using ih [] n
    rw [texts_cons]
    cases kind with
    | opening => simpa [keepUnits, TexUnit.text] using ih (pending ++ ['{']) n
    | closing =>
      obtain ⟨rest, hrest⟩ := htail n
      exact ⟨rest, by simp [keepUnits, TexUnit.text, ← hrest]⟩
    | char _ | special _ =>
      cases n with
      | zero => exact List.nil_prefix
      | succ n =>
        obtain ⟨rest, hrest⟩ := htail n
        exact ⟨rest, by simp [keepUnits, ← hrest]⟩

/-- **The start of a balanced text is balanced**, its open braces being closed. -/
theorem isBalanced_textPrefix {s : Text} (hs : isBalanced s = true) (n : Int) :
    isBalanced (textPrefix s n) = true := by
  rw [textPrefix]
  split
  · rfl
  · have hprefix : keepUnits [] n.toNat (scan s) <+: s := by
      have := keepUnits_prefix [] n.toNat (scan s)
      rwa [List.nil_append, texts_scan] at this
    obtain ⟨k, hk⟩ := exists_openAfter?_of_prefix hprefix ((isBalanced_iff s).1 hs)
    rw [isBalanced_iff, closeBraces, openAfter?_append, hk, Option.bind_some, depth_eq hk,
      openAfter?_replicate_close]

end Bibliography.Tex
