import Bibliography.Proofs.Tex.Braces
import Bibliography.Tex.Special

set_option autoImplicit false

/-! # Pieces of special characters

The automaton reads a text in pieces and loses nothing. What can be a piece depends on what stands
behind it: a control sequence takes all the letters that follow its backslash. So a piece is judged
in front of the text that it leaves (`SpecialPiece.Fits`), and pieces tile a text if each of them
fits in front of the others (`Tiling`). Every text starts with a piece that fits (`exists_fits`),
and a piece that fits is the one that is read (`SpecialPiece.Fits.specialPieces_append`), so a text
has one tiling, its pieces.

Main statement: `tiling_iff`.
-/

namespace Bibliography.Tex

open NameFormat (isBrace)

variable {p : SpecialPiece} {ps : List SpecialPiece} {raw name rest : Text}

/-! ## The automaton -/

/-- What was read of a control sequence that is still open. -/
def openCommand : Option Text → Text
  | none => []
  | some name => '\\' :: name.reverse

/-- A character that is no part of a control sequence. -/
theorem text_of_singlePiece (c : Char) :
    (if c = '{' ∨ c = '}' then SpecialPiece.brace c else .char c).text = [c] := by
  split <;> rfl

theorem piecesFrom_backslash (s : Text) : piecesFrom none ('\\' :: s) = piecesFrom (some []) s :=
  rfl

theorem piecesFrom_single {c : Char} (h : c ≠ '\\') (s : Text) :
    piecesFrom none (c :: s) =
      (if c = '{' ∨ c = '}' then SpecialPiece.brace c else .char c) :: piecesFrom none s := by
  rw [piecesFrom, if_neg h]

theorem piecesFrom_letter {c : Char} (h : isCommandLetter c = true) (name s : Text) :
    piecesFrom (some name) (c :: s) = piecesFrom (some (c :: name)) s := by
  rw [piecesFrom, if_pos h]

/-- Right behind a backslash any character that is no letter is the whole name. -/
theorem piecesFrom_symbol {c : Char} (h : isCommandLetter c = false) (s : Text) :
    piecesFrom (some []) (c :: s) = .command [c] :: piecesFrom none s := by
  rw [piecesFrom, if_neg (by simp [h]), if_pos rfl]

/-- The name of a control sequence ends before the first character that is no letter. -/
theorem piecesFrom_end {name : Text} (hname : name ≠ []) {c : Char}
    (h : isCommandLetter c = false) (s : Text) :
    piecesFrom (some name) (c :: s) = .command name.reverse :: piecesFrom none (c :: s) := by
  conv =>
    lhs
    rw [piecesFrom, if_neg (by simp [h]), if_neg hname]
  split
  · next hc => rw [hc, piecesFrom_backslash]
  · next hc => rw [piecesFrom_single hc]

theorem texts_piecesFrom (name? : Option Text) (s : Text) :
    (piecesFrom name? s).flatMap SpecialPiece.text = openCommand name? ++ s := by
  induction s generalizing name? with
  | nil => cases name? <;> simp [piecesFrom, openCommand, SpecialPiece.text]
  | cons c s ih =>
    have hnone : (piecesFrom none (c :: s)).flatMap SpecialPiece.text = c :: s := by
      by_cases hc : c = '\\'
      · subst hc
        rw [piecesFrom_backslash, ih]
        rfl
      · rw [piecesFrom_single hc, List.flatMap_cons, text_of_singlePiece, ih]
        rfl
    cases name? with
    | none => exact hnone
    | some name =>
      cases hletter : isCommandLetter c with
      | true =>
        rw [piecesFrom_letter hletter, ih]
        simp [openCommand]
      | false =>
        by_cases hname : name = []
        · subst hname
          rw [piecesFrom_symbol hletter, List.flatMap_cons, ih]
          rfl
        · rw [piecesFrom_end hname hletter, List.flatMap_cons, hnone]
          rfl

/-- **The pieces of a special character together are the special character.** -/
theorem texts_specialPieces (raw : Text) : (specialPieces raw).flatMap SpecialPiece.text = raw :=
  texts_piecesFrom none raw

/-! ## Tilings -/

/-- What can be the name of a control sequence in front of `after`: ASCII letters, all that stand
there; one other character, whichever it is; or nothing, but only at the end of the text. -/
inductive IsCommandName (after : Text) : Text → Prop where
  | letters {name : Text} (hne : name ≠ []) (hletters : ∀ c ∈ name, c.isAlpha = true)
      (hend : ∀ c ∈ after.head?, c.isAlpha = false) : IsCommandName after name
  | symbol {c : Char} (hc : c.isAlpha = false) : IsCommandName after [c]
  | atEnd (hend : after = []) : IsCommandName after []

/-- What has to hold of a piece in front of `after`. -/
def SpecialPiece.Fits (after : Text) : SpecialPiece → Prop
  | .brace c => isBrace c = true
  | .command name => IsCommandName after name
  | .char c => isBrace c = false ∧ c ≠ '\\'

/-- The pieces tile the text: together they are the text, and each fits in front of the others. -/
structure Tiling (raw : Text) (ps : List SpecialPiece) : Prop where
  texts : ps.flatMap SpecialPiece.text = raw
  fits : ∀ before p after, ps = before ++ p :: after → p.Fits (after.flatMap SpecialPiece.text)

theorem tiling_nil : Tiling [] [] := ⟨rfl, fun before p after heq => by simp at heq⟩

theorem tiling_cons_iff :
    Tiling raw (p :: ps) ↔ ∃ rest, raw = p.text ++ rest ∧ p.Fits rest ∧ Tiling rest ps := by
  constructor
  · intro h
    refine ⟨ps.flatMap SpecialPiece.text, h.texts.symm, h.fits [] p ps rfl, rfl, ?_⟩
    intro before q after heq
    exact h.fits (p :: before) q after (congrArg (p :: ·) heq)
  · rintro ⟨rest, rfl, hp, h⟩
    refine ⟨congrArg (p.text ++ ·) h.texts, fun before q after heq => ?_⟩
    cases before with
    | nil =>
      obtain ⟨rfl, rfl⟩ := List.cons.inj heq
      rwa [h.texts]
    | cons q' before => exact h.fits before q after (List.cons.inj heq).2

/-- Whatever stands behind a backslash starts with a name. -/
theorem exists_isCommandName (s : Text) :
    ∃ name rest, s = name ++ rest ∧ IsCommandName rest name := by
  by_cases hname : s.takeWhile Char.isAlpha = []
  · cases s with
    | nil => exact ⟨[], [], rfl, .atEnd rfl⟩
    | cons c s =>
      have hc : c.isAlpha = false := by simpa [List.takeWhile_cons] using hname
      exact ⟨[c], s, rfl, .symbol hc⟩
  · have hletters : ∀ c ∈ s.takeWhile Char.isAlpha, c.isAlpha = true :=
      List.all_eq_true.1 List.all_takeWhile
    exact ⟨_, s.dropWhile Char.isAlpha, List.takeWhile_append_dropWhile.symm,
      .letters hname hletters fun c => Text.eq_false_of_mem_head?_dropWhile⟩

/-- **Every text starts with a piece that fits.** -/
theorem exists_fits {s : Text} (hs : s ≠ []) :
    ∃ (p : SpecialPiece) (rest : Text), s = p.text ++ rest ∧ p.Fits rest := by
  obtain ⟨c, s, rfl⟩ := List.exists_cons_of_ne_nil hs
  cases hbrace : isBrace c with
  | true => exact ⟨.brace c, s, rfl, hbrace⟩
  | false =>
    by_cases hc : c = '\\'
    · subst hc
      obtain ⟨name, rest, rfl, hname⟩ := exists_isCommandName s
      exact ⟨.command name, rest, rfl, hname⟩
    · exact ⟨.char c, s, rfl, hbrace, hc⟩

theorem SpecialPiece.length_text_pos (p : SpecialPiece) : 0 < p.text.length := by
  cases p <;> exact Nat.succ_pos _

/-- Every text has a tiling. -/
theorem exists_tiling (s : Text) : ∃ ps, Tiling s ps := by
  -- a control sequence leaves the text shorter, but not by one character
  induction hn : s.length using Nat.strongRecOn generalizing s with
  | ind n ih =>
    subst hn
    by_cases hs : s = []
    · exact ⟨[], hs ▸ tiling_nil⟩
    · obtain ⟨p, rest, rfl, hp⟩ := exists_fits hs
      have hshorter : rest.length < (p.text ++ rest).length := by
        rw [List.length_append]
        exact Nat.lt_add_of_pos_left p.length_text_pos
      obtain ⟨ps, h⟩ := ih _ hshorter rest rfl
      exact ⟨p :: ps, tiling_cons_iff.2 ⟨rest, rfl, hp, h⟩⟩

/-! ## Reading pieces that fit -/

theorem piecesFrom_letters (hletters : ∀ c ∈ name, c.isAlpha = true) (read rest : Text) :
    piecesFrom (some read) (name ++ rest) = piecesFrom (some (name.reverse ++ read)) rest := by
  induction name generalizing read with
  | nil => rfl
  | cons c name ih =>
    rw [List.forall_mem_cons] at hletters
    rw [List.cons_append, piecesFrom_letter hletters.1, ih hletters.2, List.reverse_cons,
      List.append_assoc, List.singleton_append]

/-- A name is read as far as it goes. -/
theorem IsCommandName.piecesFrom_append (h : IsCommandName rest name) :
    piecesFrom (some []) (name ++ rest) = .command name :: piecesFrom none rest := by
  cases h with
  | letters hne hletters hend =>
    rw [piecesFrom_letters hletters, List.append_nil]
    cases rest with
    | nil => exact congrArg (fun read => [SpecialPiece.command read]) (List.reverse_reverse name)
    | cons c rest =>
      rw [piecesFrom_end (by simpa using hne) (hend c rfl), List.reverse_reverse]
  | symbol hc => exact piecesFrom_symbol hc rest
  | atEnd hend => rw [hend]; rfl

/-- **A piece that fits is the one that is read.** -/
theorem SpecialPiece.Fits.specialPieces_append (h : p.Fits rest) :
    specialPieces (p.text ++ rest) = p :: specialPieces rest := by
  cases p with
  | brace c => obtain rfl | rfl := eq_of_isBrace h <;> rfl
  | command name => exact IsCommandName.piecesFrom_append h
  | char c =>
    have hbrace : ¬ (c = '{' ∨ c = '}') := not_or.2 (isBrace_eq_false_iff.1 h.1)
    calc specialPieces (c :: rest)
        = (if c = '{' ∨ c = '}' then .brace c else .char c) :: specialPieces rest :=
          piecesFrom_single h.2 rest
      _ = .char c :: specialPieces rest := by rw [if_neg hbrace]

theorem Tiling.eq_specialPieces (h : Tiling raw ps) : ps = specialPieces raw := by
  induction ps generalizing raw with
  | nil => exact h.texts ▸ rfl
  | cons p ps ih =>
    obtain ⟨rest, rfl, hp, hrest⟩ := tiling_cons_iff.1 h
    rw [hp.specialPieces_append, ← ih hrest]

/-- **The pieces of a text are its only tiling.** -/
theorem tiling_iff : Tiling raw ps ↔ ps = specialPieces raw := by
  refine ⟨Tiling.eq_specialPieces, ?_⟩
  rintro rfl
  obtain ⟨ps, h⟩ := exists_tiling raw
  exact h.eq_specialPieces ▸ h

/-- A piece that is a character is no brace. -/
theorem isBrace_of_char_mem_specialPieces {c : Char} (h : .char c ∈ specialPieces raw) :
    isBrace c = false := by
  obtain ⟨before, after, heq⟩ := List.append_of_mem h
  exact ((tiling_iff.2 rfl).fits before (.char c) after heq).1

end Bibliography.Tex
