import Bibliography.Integer
import Bibliography.Toml.Document
import Bibliography.Toml.Quoted

set_option autoImplicit false

/-! # TOML scalars

Numbers, truth values, dates and times stand in a document without quotes. Integers have 64 bits.
Of the others it only matters here whether they are well formed. -/

namespace Bibliography.Toml

/-! ## Integers -/

/-- The number that groups of digits write, with an underscore between neighbouring groups. -/
def grouped? (base : Nat) (s : Text) : Option Nat :=
  let groups := s.splitWhere (· == '_')
  if groups.contains [] then none else natural? base groups.flatten

/-- A decimal number, which starts with zero only if it is zero. -/
def decimal? (s : Text) : Option Nat :=
  if s.head? = some '0' ∧ s ≠ ['0'] then none else grouped? 10 s

def integer? (s : Text) : Option Int :=
  let n : Option Int := match s with
    | '0' :: 'x' :: digits => (grouped? 16 digits).map Int.ofNat
    | '0' :: 'o' :: digits => (grouped? 8 digits).map Int.ofNat
    | '0' :: 'b' :: digits => (grouped? 2 digits).map Int.ofNat
    | '+' :: digits => (decimal? digits).map Int.ofNat
    | '-' :: digits => (decimal? digits).map fun n => -Int.ofNat n
    | digits => (decimal? digits).map Int.ofNat
  n.filter inRange

/-! ## Numbers with a fraction or an exponent -/

def withoutSign : Text → Text
  | '+' :: s | '-' :: s => s
  | s => s

/-- The digits at the start of a word, with their underscores, and what follows them. -/
def takeDigits (s : Text) : Text × Text :=
  (s.takeWhile fun c => c.isDigit || c == '_', s.dropWhile fun c => c.isDigit || c == '_')

/-- The exponent that the rest of a word writes; zero if there is no rest. -/
def exponent? : Text → Option Int
  | [] => some 0
  | 'e' :: '-' :: digits | 'E' :: '-' :: digits => (grouped? 10 digits).map fun n => -Int.ofNat n
  | 'e' :: '+' :: digits | 'E' :: '+' :: digits => (grouped? 10 digits).map Int.ofNat
  | 'e' :: digits | 'E' :: digits => (grouped? 10 digits).map Int.ofNat
  | _ => none

/-- The digits of a number without sign as one number, and the power of ten that goes with it. The
number has a fraction or an exponent. -/
def scaled? (s : Text) : Option (Nat × Int) := do
  let (whole, rest) := takeDigits s
  let n ← decimal? whole
  match rest with
  | '.' :: rest =>
    let (fraction, rest) := takeDigits rest
    let digits := fraction.filter (· ≠ '_')
    let m ← grouped? 10 fraction
    return (n * Nat.pow 10 digits.length + m, (← exponent? rest) - Int.ofNat digits.length)
  | [] => none
  | rest => return (n, ← exponent? rest)

/-- The least number that is rounded to infinity when numbers have 53 binary digits and exponents
up to 1023. -/
def infinityBound : Nat := Nat.pow 2 1024 - Nat.pow 2 970

/-- Whether `n` times a power of ten is rounded to infinity. -/
def isInfinite (n : Nat) (exponent : Int) : Bool :=
  let size := Int.ofNat (Nat.toDigits 10 n).length + exponent
  if n = 0 ∨ size ≤ 308 then false
  else if 310 ≤ size then true
  else if 0 ≤ exponent then decide (infinityBound ≤ n * Nat.pow 10 exponent.toNat)
  else decide (infinityBound * Nat.pow 10 (-exponent).toNat ≤ n)

/-- Whether a word writes a number with a fraction or an exponent, infinity, or what is no number.
Digits may not write infinity, unless after a minus sign. -/
def isFloat (s : Text) : Bool :=
  if withoutSign s = "inf".toList ∨ withoutSign s = "nan".toList then true
  else
    match scaled? (withoutSign s) with
    | none => false
    | some (n, exponent) => s.head? == some '-' || !isInfinite n exponent

/-! ## Dates and times -/

/-- What follows the number of exactly `width` digits at the start of a word, if that number lies
between two bounds. -/
def afterNumber? (width least most : Nat) (s : Text) : Option (Nat × Text) := do
  if (s.take width).length < width ∨ ¬ (s.take width).all Char.isDigit then none
  else
    let n ← natural? 10 (s.take width)
    if least ≤ n ∧ n ≤ most then return (n, s.drop width) else none

def afterMark? (mark : Char) : Text → Option Text
  | c :: s => if c = mark then some s else none
  | [] => none

def daysOf (year month : Nat) : Nat :=
  if month = 2 then
    if year % 4 = 0 ∧ (year % 100 ≠ 0 ∨ year % 400 = 0) then 29 else 28
  else if [4, 6, 9, 11].contains month then 30
  else 31

def afterDate? (s : Text) : Option Text := do
  let (year, s) ← afterNumber? 4 0 9999 s
  let (month, s) ← afterNumber? 2 1 12 (← afterMark? '-' s)
  let (_, s) ← afterNumber? 2 1 (daysOf year month) (← afterMark? '-' s)
  return s

/-- What follows the hour and the minute. -/
def afterMinute? (s : Text) : Option Text := do
  let (_, s) ← afterNumber? 2 0 23 s
  let (_, s) ← afterNumber? 2 0 59 (← afterMark? ':' s)
  return s

def afterTime? (s : Text) : Option Text := do
  let (_, s) ← afterNumber? 2 0 60 (← afterMark? ':' (← afterMinute? s))
  match s with
  | '.' :: c :: rest => if c.isDigit then return rest.dropWhile Char.isDigit else return s
  | s => return s

/-- Whether the rest of a word says how far a time is from that of Greenwich. -/
def isOffset : Text → Bool
  | ['Z'] | ['z'] => true
  | '+' :: s | '-' :: s => afterMinute? s == some []
  | _ => false

def isDateTime (s : Text) : Bool :=
  match afterDate? s with
  | none => afterTime? s == some []
  | some [] => true
  | some (c :: s) =>
    (c == 'T' || c == 't' || c == ' ') &&
      match afterTime? s with
      | none => false
      | some rest => rest.isEmpty || isOffset rest

/-! ## Words -/

/-- A character of a value without quotes. -/
def isWordChar (c : Char) : Bool := c.isAlphanum || "_-+.:".toList.contains c

def ofWord? (s : Text) : Option Value :=
  if s = "true".toList then some (.boolean true)
  else if s = "false".toList then some (.boolean false)
  else if isDateTime s then some (.dateTime s)
  else if isFloat s then some (.float s)
  else (integer? s).map .integer

/-- The word at the start of a text, and what follows it. A blank between a date and a time is part
of the word. -/
def takeWord (s : Text) : Text × Text :=
  let word := s.takeWhile isWordChar
  match s.drop word.length with
  | ' ' :: c :: rest =>
    if afterDate? word = some [] ∧ c.isDigit then
      (word ++ ' ' :: (c :: rest).takeWhile isWordChar, (c :: rest).dropWhile isWordChar)
    else (word, ' ' :: c :: rest)
  | rest => (word, rest)

end Bibliography.Toml
