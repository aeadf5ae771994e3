import Bibliography.Text.Basic

set_option autoImplicit false

/-! # TOML strings

Strings come in four forms: between quotes, where a backslash starts an escape, or between
apostrophes, where it does not; and in either case on one line, or on several between three of
them. -/

namespace Bibliography.Toml

/-! ## Characters -/

/-- A character that strings and comments can hold as it is: no control character but the tab. -/
def isTextChar (c : Char) : Bool := c == '\t' || decide (32 ≤ c.toNat) && c.toNat != 127

def isBlank (c : Char) : Bool := c == ' ' || c == '\t'

/-- The text after the line end with which it starts. -/
def afterLineEnd? : Text → Option Text
  | '\n' :: rest => some rest
  | '\r' :: '\n' :: rest => some rest
  | _ => none

/-! ## Digits -/

def digit? (base : Nat) (c : Char) : Option Nat :=
  let value :=
    if c.isDigit then c.toNat - '0'.toNat
    else if 'a' ≤ c ∧ c ≤ 'f' then c.toNat - 'a'.toNat + 10
    else if 'A' ≤ c ∧ c ≤ 'F' then c.toNat - 'A'.toNat + 10
    else base
  if value < base then some value else none

/-- The number that digits write. -/
def natural? (base : Nat) (digits : Text) : Option Nat :=
  if digits = [] then none
  else digits.foldlM (fun n c => (digit? base c).map (base * n + ·)) 0

/-! ## Strings -/

/-- How a string is written. -/
structure StringForm where
  /-- The character that closes it, or three of which do. -/
  quote : Char
  /-- Whether it can go over several lines. -/
  multi : Bool
  deriving DecidableEq, Repr

/-- Whether a backslash starts an escape. -/
def StringForm.escapes (f : StringForm) : Bool := f.quote == '"'

/-- The inside of a string as it is written, and what follows the string. Of a row of quotes in
front of the three that close a string, up to two belong to it. -/
def takeInside (f : StringForm) : Text → Option (Text × Text)
  | [] => none
  | c :: rest =>
    if c = f.quote then
      if !f.multi then some ([], rest)
      else if rest.take 2 = [f.quote, f.quote] then
        let inner := ((rest.drop 2).takeWhile (· == f.quote)).take 2
        some (inner, rest.drop (2 + inner.length))
      else (takeInside f rest).map fun r => (c :: r.1, r.2)
    else if f.escapes ∧ c = '\\' then
      match rest with
      | [] => none
      | d :: rest => (takeInside f rest).map fun r => (c :: d :: r.1, r.2)
    else (takeInside f rest).map fun r => (c :: r.1, r.2)

def escape? : Char → Option Char
  | 'b' => some '\x08'
  | 't' => some '\t'
  | 'n' => some '\n'
  | 'f' => some '\x0c'
  | 'r' => some '\r'
  | '"' => some '"'
  | '\\' => some '\\'
  | _ => none

def codeChar? (digits : Text) : Option Char :=
  (natural? 16 digits).bind fun n => if n.isValidChar then some (Char.ofNat n) else none

/-- What an escape stands for, and how many characters it has after its backslash. -/
def readEscape? : Text → Option (Char × Nat)
  | 'u' :: rest => if rest.length < 4 then none else (codeChar? (rest.take 4)).map (·, 5)
  | 'U' :: rest => if rest.length < 8 then none else (codeChar? (rest.take 8)).map (·, 9)
  | c :: _ => (escape? c).map (·, 1)
  | [] => none

/-- The text of the inside of a string. A backslash at the end of a line hides the blanks and line
ends that follow it; `skipping` is set while that goes on. -/
def decode (f : StringForm) (skipping : Bool) (s : Text) : Option Text :=
  match s with
  | [] => some []
  | c :: rest =>
    if f.multi ∧ c = '\n' then
      if skipping then decode f true rest else (decode f false rest).map ('\n' :: ·)
    else if f.multi ∧ c = '\r' ∧ rest.head? = some '\n' then decode f skipping rest
    else if skipping ∧ isBlank c then decode f true rest
    else if f.escapes ∧ c = '\\' then
      if f.multi ∧ (afterLineEnd? (rest.dropWhile isBlank)).isSome then decode f true rest
      else
        match readEscape? rest with
        | none => none
        | some (d, n) => (decode f false (rest.drop n)).map (d :: ·)
    else if isTextChar c then (decode f false rest).map (c :: ·)
    else none
termination_by s.length
decreasing_by
  all_goals
    simp only [List.length_cons, List.length_drop]
    omega

/-- A string on one line, after its first quote, and what follows it. -/
def takeLine (quote : Char) (s : Text) : Option (Text × Text) := do
  let (inside, after) ← takeInside ⟨quote, false⟩ s
  return (← decode ⟨quote, false⟩ false inside, after)

/-- A string after its first quote, and what follows it. Of a string between three quotes, a line
end at its very start is dropped. -/
def takeString (quote : Char) (s : Text) : Option (Text × Text) :=
  if s.take 2 = [quote, quote] then do
    let (inside, after) ← takeInside ⟨quote, true⟩ (s.drop 2)
    return (← decode ⟨quote, true⟩ false ((afterLineEnd? inside).getD inside), after)
  else takeLine quote s

end Bibliography.Toml
