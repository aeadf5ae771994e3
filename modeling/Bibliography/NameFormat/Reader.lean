import Bibliography.NameFormat.Basic
import Bibliography.Text.Basic

set_option autoImplicit false

/-! # Reading name formats

A group is an opening brace, text without letters, the letters of a part, perhaps a delimiter in
braces, again text without letters, and a closing brace. One letter (`f`, `v`, `l` or `j`)
abbreviates the part, the same letter twice prints it in full. Braced strings may stand in the
text before and after, with anything in them. -/

namespace Bibliography

inductive PatternFault where
  /-- An opening brace without its partner. -/
  | unmatchedOpen
  /-- A closing brace without its partner. -/
  | unmatchedClose
  /-- A character that cannot follow the letters of a group. -/
  | unexpected (c : Char)
  /-- A group without letters. -/
  | noLetters
  /-- Letters that name no part in one of the two ways. -/
  | invalidLetters (letters : Text)
  /-- A letter that stands for no part. -/
  | unknownPart (c : Char)
  deriving DecidableEq, Repr

def PatternFault.message : PatternFault → String
  | .unmatchedOpen => "unmatched '\x7b'"
  | .unmatchedClose => "unmatched '\x7d'"
  | .unexpected c => "unexpected '" ++ String.ofList [c] ++ "' after the part letters"
  | .noLetters => "group has no format letters"
  | .invalidLetters letters => "invalid format letters '" ++ String.ofList letters ++ "'"
  | .unknownPart c => "unknown name part '" ++ String.ofList [c] ++ "'"

namespace NameFormat

/-! ## Pieces of a group -/

def openAfter (level : Nat) (c : Char) : Nat :=
  if c = '{' then level + 1 else if c = '}' then level - 1 else level

/-- Cuts a text after the brace that closes `level` open ones. -/
def takeBraced : Nat → Text → Except PatternFault (Text × Text)
  | _, [] => .error .unmatchedOpen
  | level, c :: rest =>
    if c = '}' ∧ level ≤ 1 then .ok ([c], rest)
    else
      match takeBraced (openAfter level c) rest with
      | .error e => .error e
      | .ok (taken, rest) => .ok (c :: taken, rest)

/-- Cuts a text before the first letter or closing brace outside the braced strings that it
opens; `level` braces are open at its start. -/
def takeVerbatim : Nat → Text → Except PatternFault (Text × Text)
  | level, [] => if level = 0 then .ok ([], []) else .error .unmatchedOpen
  | level, c :: rest =>
    if level = 0 ∧ (c = '}' ∨ c.isAlpha) then .ok ([], c :: rest)
    else
      match takeVerbatim (openAfter level c) rest with
      | .error e => .error e
      | .ok (taken, rest) => .ok (c :: taken, rest)

def partOfLetter? (c : Char) : Option NamePart :=
  match c.toLower with
  | 'f' => some .given
  | 'v' => some .prelast
  | 'l' => some .last
  | 'j' => some .lineage
  | _ => none

def partOfLetters (letters : Text) : Except PatternFault (NamePart × Bool) :=
  let part (c : Char) (abbreviated : Bool) : Except PatternFault (NamePart × Bool) :=
    match partOfLetter? c with
    | some p => .ok (p, abbreviated)
    | none => .error (.unknownPart c)
  match letters with
  | [] => .error .noLetters
  | [c] => part c true
  | [c, d] => if c = d then part c false else .error (.invalidLetters letters)
  | _ => .error (.invalidLetters letters)

/-- The delimiter that stands at the start of a text, if one does, and the rest. -/
def takeDelimiter : Text → Except PatternFault (Option Text × Text)
  | '{' :: rest =>
    match takeBraced 1 rest with
    | .error e => .error e
    | .ok (taken, rest) => .ok (some taken.dropLast, rest)
  | s => .ok (none, s)

def trailingTies (s : Text) : Nat := (s.reverse.takeWhile (· == '~')).length

/-- What `n` ties at the end of a group say. -/
def tieOfCount : Nat → GroupTie
  | 0 => .absent
  | 1 => .discretionary
  | _ => .forced

/-- Reads a group whose opening brace is read, and gives what follows it. -/
def takeGroup (s : Text) : Except PatternFault (NameGroup × Text) := do
  let (before, s) ← takeVerbatim 0 s
  let letters := s.takeWhile Char.isAlpha
  let (part, abbreviated) ← partOfLetters letters
  let (delimiter, s) ← takeDelimiter (s.drop letters.length)
  let (after, s) ← takeVerbatim 0 s
  match s with
  | [] => .error .unmatchedOpen
  | c :: s =>
    if c ≠ '}' then .error (.unexpected c)
    else
      let ties := trailingTies after
      .ok (⟨before, part, abbreviated, delimiter, after.take (after.length - ties),
        tieOfCount ties⟩, s)

/-! ## Reading consumes -/

theorem length_of_takeBraced {s : Text} : ∀ {level : Nat} {taken rest : Text},
    takeBraced level s = .ok (taken, rest) → rest.length < s.length := by
  induction s with
  | nil => intro level taken rest h; simp [takeBraced] at h
  | cons c s ih =>
    intro level taken rest h
    rw [takeBraced] at h
    split at h
    · cases h; simp
    · split at h
      · cases h
      · rename_i heq
        cases h
        exact Nat.lt_succ_of_lt (ih heq)

theorem length_of_takeVerbatim {s : Text} : ∀ {level : Nat} {taken rest : Text},
    takeVerbatim level s = .ok (taken, rest) → rest.length ≤ s.length := by
  induction s with
  | nil =>
    intro level taken rest h
    rw [takeVerbatim] at h
    split at h <;> cases h
    simp
  | cons c s ih =>
    intro level taken rest h
    rw [takeVerbatim] at h
    split at h
    · cases h; simp
    · split at h
      · cases h
      · rename_i heq
        cases h
        exact Nat.le_succ_of_le (ih heq)

theorem length_of_takeDelimiter {s rest : Text} {d : Option Text}
    (h : takeDelimiter s = .ok (d, rest)) : rest.length ≤ s.length := by
  unfold takeDelimiter at h
  split at h
  · split at h
    · cases h
    · rename_i heq
      cases h
      exact Nat.le_succ_of_le (Nat.le_of_lt (length_of_takeBraced heq))
  · cases h; simp

theorem exists_of_bind_eq_ok {ε α β : Type} {x : Except ε α} {f : α → Except ε β} {b : β}
    (h : x >>= f = .ok b) : ∃ a, x = .ok a ∧ f a = .ok b := by
  cases x with
  | error e => cases h
  | ok a => exact ⟨a, rfl, h⟩

/-- What is read of a group that is accepted. -/
theorem exists_of_takeGroup {s rest : Text} {g : NameGroup} (h : takeGroup s = .ok (g, rest)) :
    ∃ letters delimited after, takeVerbatim 0 s = .ok (g.before, letters) ∧
      partOfLetters (letters.takeWhile Char.isAlpha) = .ok (g.part, g.abbreviated) ∧
      takeDelimiter (letters.drop (letters.takeWhile Char.isAlpha).length) =
        .ok (g.delimiter, delimited) ∧
      takeVerbatim 0 delimited = .ok (after, '}' :: rest) ∧
      g.after = after.take (after.length - trailingTies after) ∧
      g.tie = tieOfCount (trailingTies after) := by
  obtain ⟨⟨before, letters⟩, hbefore, h⟩ := exists_of_bind_eq_ok h
  obtain ⟨⟨part, abbreviated⟩, hpart, h⟩ := exists_of_bind_eq_ok h
  obtain ⟨⟨delimiter, delimited⟩, hdelimiter, h⟩ := exists_of_bind_eq_ok h
  obtain ⟨⟨after, closing⟩, hafter, h⟩ := exists_of_bind_eq_ok h
  cases closing with
  | nil => cases h
  | cons c closing =>
    dsimp only at h
    split at h
    · cases h
    · next hc =>
      obtain rfl : c = '}' := Decidable.not_not.1 hc
      cases h
      exact ⟨letters, delimited, after, hbefore, hpart, hdelimiter, hafter, rfl, rfl⟩

/-- What follows a group is shorter than the text that starts inside it. -/
theorem length_of_takeGroup {s rest : Text} {g : NameGroup}
    (h : takeGroup s = .ok (g, rest)) : rest.length < s.length := by
  obtain ⟨letters, delimited, after, hbefore, -, hdelimiter, hafter, -⟩ := exists_of_takeGroup h
  have hletters := length_of_takeVerbatim hbefore
  have hdelimited := length_of_takeDelimiter hdelimiter
  have hrest := length_of_takeVerbatim hafter
  rw [List.length_drop] at hdelimited
  rw [List.length_cons] at hrest
  omega

/-! ## Patterns -/

def isBrace (c : Char) : Bool := c == '{' || c == '}'

def ofPattern (pattern : Text) : Except PatternFault NameFormat :=
  match pattern with
  | [] => .ok []
  | c :: rest =>
    if c = '{' then
      match _h : takeGroup rest with
      | .error e => .error e
      | .ok (g, rest) => (.group g :: ·) <$> ofPattern rest
    else if c = '}' then .error .unmatchedClose
    else
      (.literal (c :: rest.takeWhile (!isBrace ·)) :: ·) <$>
        ofPattern (rest.dropWhile (!isBrace ·))
termination_by pattern.length
decreasing_by
  · exact Nat.lt_succ_of_lt (length_of_takeGroup ‹_›)
  · exact Nat.lt_succ_of_le (List.dropWhile_sublist _).length_le

end NameFormat

end Bibliography
