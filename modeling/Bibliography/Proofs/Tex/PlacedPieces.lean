import Bibliography.Proofs.Tex.Pieces
import Bibliography.Proofs.Tex.Substring
import Mathlib.Data.List.Forall2

set_option autoImplicit false

/-! # Pieces by their bytes

The pieces of a special character are found once more, by a pass over the characters that keeps the
bytes where a control sequence starts and stops (`placedPieces`): it skips the letters behind a
backslash, and if there are none, one character. It reads a piece that fits as the automaton does
(`SpecialPiece.Fits.placedPiecesFrom_append`). What stands between the bytes is the control
sequence, with its name one byte behind the start.

Main statement: `specialPieces_tile`.
-/

namespace Bibliography.Tex

variable {p : SpecialPiece} {ps : List SpecialPiece} {raw pre name rest : Text}

/-! ## The pass over the bytes -/

/-- A piece, where a control sequence is given by the bytes at which it starts and stops. -/
inductive PlacedPiece where
  | brace (c : Char)
  /-- The name starts one byte behind the backslash. -/
  | command (start stop : Nat)
  | char (c : Char)
  deriving DecidableEq, Repr

/-- The characters of a text with the bytes where they start, the first of them at `pos`. -/
def charsAt (pos : Nat) : Text → List (Nat × Char)
  | [] => []
  | c :: s => (pos, c) :: charsAt (pos + c.utf8Size) s

/-- The byte where the letters at the start stop, which is `stop` if there are none, and the
characters behind them. -/
def skipLetters (stop : Nat) : List (Nat × Char) → Nat × List (Nat × Char)
  | [] => (stop, [])
  | (pos, c) :: cs =>
    if isCommandLetter c then skipLetters (pos + c.utf8Size) cs else (stop, (pos, c) :: cs)

/-- The byte where a name stops that starts at byte `start`, and the characters behind it. -/
def skipName (start : Nat) (cs : List (Nat × Char)) : Nat × List (Nat × Char) :=
  match skipLetters start cs with
  | (stop, []) => (stop, [])
  | (stop, (pos, c) :: rest) =>
    if stop = start then (pos + c.utf8Size, rest) else (stop, (pos, c) :: rest)

theorem length_skipLetters_le (stop : Nat) (cs : List (Nat × Char)) :
    (skipLetters stop cs).2.length ≤ cs.length := by
  induction cs generalizing stop with
  | nil => exact Nat.le_refl _
  | cons q cs ih =>
    rw [skipLetters]
    split
    · exact Nat.le_succ_of_le (ih _)
    · exact Nat.le_refl _

theorem length_skipName_le (start : Nat) (cs : List (Nat × Char)) :
    (skipName start cs).2.length ≤ cs.length := by
  have hletters := length_skipLetters_le start cs
  rw [skipName]
  split
  · exact Nat.zero_le _
  · next heq =>
    rw [heq] at hletters
    split
    · exact Nat.le_of_succ_le hletters
    · exact hletters

/-- The pieces that a pass over characters with their bytes finds. -/
def placedPiecesFrom : List (Nat × Char) → List PlacedPiece
  | [] => []
  | (pos, c) :: cs =>
    if c = '{' ∨ c = '}' then .brace c :: placedPiecesFrom cs
    else if c = '\\' then
      .command pos (skipName (pos + 1) cs).1 :: placedPiecesFrom (skipName (pos + 1) cs).2
    else .char c :: placedPiecesFrom cs
  termination_by cs => cs.length
  decreasing_by
    · exact Nat.lt_succ_self _
    · exact Nat.lt_succ_of_le (length_skipName_le _ _)
    · exact Nat.lt_succ_self _

/-- The pieces of a text, the control sequences by their bytes. -/
def placedPieces (raw : Text) : List PlacedPiece := placedPiecesFrom (charsAt 0 raw)

/-- What a piece given by bytes is in a text: the backslash and the name stand between the two
bytes, and the name from one byte later on. -/
inductive PlacedPiece.Gives (raw : Text) : PlacedPiece → SpecialPiece → Prop where
  | brace (c : Char) : Gives raw (.brace c) (.brace c)
  | command {start stop : Nat} {name : Text}
      (hcommand : CutsOut raw (some (start, stop)) ('\\' :: name))
      (hname : CutsOut raw (some (start + 1, stop)) name) :
      Gives raw (.command start stop) (.command name)
  | char (c : Char) : Gives raw (.char c) (.char c)

/-- The piece given by its bytes, if it starts at byte `pos`. -/
def SpecialPiece.placed (pos : Nat) : SpecialPiece → PlacedPiece
  | .brace c => .brace c
  | .command name => .command pos (pos + 1 + name.size)
  | .char c => .char c

theorem SpecialPiece.gives_placed (hraw : raw = pre ++ (p.text ++ rest)) :
    (p.placed pre.size).Gives raw p := by
  cases p with
  | brace c => exact .brace c
  | char c => exact .char c
  | command name =>
    have hcommand := cutsOut_append hraw
    rw [SpecialPiece.text, Text.size_cons, ← Nat.add_assoc] at hcommand
    have hbehind : raw = (pre ++ ['\\']) ++ (name ++ rest) := by
      rw [hraw, SpecialPiece.text, List.append_assoc]
      rfl
    have hname := cutsOut_append hbehind
    rw [Text.size_append] at hname
    exact .command hcommand hname

theorem skipLetters_append (hletters : ∀ c ∈ name, c.isAlpha = true)
    (hend : ∀ c ∈ rest.head?, c.isAlpha = false) (stop : Nat) :
    skipLetters stop (charsAt stop (name ++ rest)) =
      (stop + name.size, charsAt (stop + name.size) rest) := by
  induction name generalizing stop with
  | nil =>
    cases rest with
    | nil => rfl
    | cons c rest =>
      have hc : ¬ isCommandLetter c = true := by simpa [isCommandLetter] using hend c rfl
      exact if_neg hc
  | cons c name ih =>
    rw [List.forall_mem_cons] at hletters
    have hc : isCommandLetter c = true := hletters.1
    rw [List.cons_append, charsAt, skipLetters, if_pos hc, ih hletters.2, Text.size_cons,
      Nat.add_assoc]

/-- A name stops behind its bytes. -/
theorem IsCommandName.skipName_append (h : IsCommandName rest name) (start : Nat) :
    skipName start (charsAt start (name ++ rest)) =
      (start + name.size, charsAt (start + name.size) rest) := by
  cases h with
  | letters hne hletters hend =>
    have hpos := Text.size_pos hne
    rw [skipName, skipLetters_append hletters hend]
    cases rest with
    | nil => rfl
    | cons c rest => exact if_neg (by omega)
  | @symbol c hc =>
    have hletter : ¬ isCommandLetter c = true := by simpa [isCommandLetter] using hc
    rw [skipName, List.singleton_append, charsAt, skipLetters, if_neg hletter]
    exact if_pos rfl
  | atEnd hend => rw [hend]; rfl

/-- **The pass over the bytes reads a piece that fits.** -/
theorem SpecialPiece.Fits.placedPiecesFrom_append (h : p.Fits rest) (pos : Nat) :
    placedPiecesFrom (charsAt pos (p.text ++ rest)) =
      p.placed pos :: placedPiecesFrom (charsAt (pos + p.text.size) rest) := by
  cases p with
  | brace c =>
    have hc : c = '{' ∨ c = '}' := eq_of_isBrace h
    rw [SpecialPiece.text, List.singleton_append, charsAt, placedPiecesFrom, if_pos hc]
    rfl
  | command name =>
    have hbrace : ¬ ('\\' = '{' ∨ '\\' = '}') := by decide
    have hstop : pos + Text.size ('\\' :: name) = pos + 1 + name.size := by
      rw [Text.size_cons, ← Nat.add_assoc]
      rfl
    have hname : skipName (pos + 1) (charsAt (pos + '\\'.utf8Size) (name ++ rest)) = _ :=
      IsCommandName.skipName_append h (pos + 1)
    rw [SpecialPiece.text, List.cons_append, charsAt, placedPiecesFrom, if_neg hbrace, if_pos rfl,
      hname, hstop]
    rfl
  | char c =>
    have hbrace : ¬ (c = '{' ∨ c = '}') := not_or.2 (isBrace_eq_false_iff.1 h.1)
    rw [SpecialPiece.text, List.singleton_append, charsAt, placedPiecesFrom, if_neg hbrace,
      if_neg h.2]
    rfl

/-- The pass over the bytes finds the pieces of a tiling. -/
theorem Tiling.forall₂_gives {s : Text} (h : Tiling s ps) (hraw : raw = pre ++ s) :
    List.Forall₂ (PlacedPiece.Gives raw) (placedPiecesFrom (charsAt pre.size s)) ps := by
  induction ps generalizing pre s with
  | nil =>
    obtain rfl : [] = s := h.texts
    rw [charsAt, placedPiecesFrom]
    exact .nil
  | cons p ps ih =>
    obtain ⟨rest, rfl, hp, hrest⟩ := tiling_cons_iff.1 h
    rw [hp.placedPiecesFrom_append, ← Text.size_append]
    exact .cons (SpecialPiece.gives_placed hraw) (ih hrest (by rw [hraw, List.append_assoc]))

/-! ## The pieces of a text -/

/-- **The pieces of a special character tile it, and no other pieces do**, whatever the text. Their
texts together are the text. A piece that is a brace is one, and one that is a character is neither
a brace nor a backslash. A control sequence is a backslash with its name: all the ASCII letters that
stand there, one other character, or nothing where the text ends. The pass over the bytes finds the
same pieces, and cuts out each control sequence and its name at ends of characters. -/
theorem specialPieces_tile (raw : Text) :
    (∀ ps, Tiling raw ps ↔ ps = specialPieces raw) ∧
    List.Forall₂ (PlacedPiece.Gives raw) (placedPieces raw) (specialPieces raw) := by
  refine ⟨fun ps => tiling_iff, ?_⟩
  have htiling : Tiling raw (specialPieces raw) := tiling_iff.2 rfl
  exact htiling.forall₂_gives (List.nil_append raw).symm

/-- Letters up to a backslash, a brace and a letter of two bytes as names, and a backslash at the
end. -/
example : specialPieces "\x7b\\AE\\\x7b\\é\\".toList =
      [.brace '\x7b', .command "AE".toList, .command ['\x7b'], .command ['é'], .command []] ∧
    placedPieces "\x7b\\AE\\\x7b\\é\\".toList =
      [.brace '\x7b', .command 1 4, .command 4 6, .command 6 9, .command 9 10] := by
  cbv

end Bibliography.Tex
