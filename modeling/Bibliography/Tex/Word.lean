import Bibliography.Tex.Special
import Bibliography.Tex.Split

set_option autoImplicit false

/-! # Words of a name

The case of a word's first letter tells the small words of a name (von, de la) from the others;
an abbreviated word is its first letter, or the first letters of its hyphenated parts. -/

namespace Bibliography.Tex

inductive LetterCase where
  | lower
  | upper
  deriving DecidableEq, Repr

/-- The case of a letter; a letter without case counts as upper case. -/
def LetterCase.ofChar (c : Char) : LetterCase :=
  if Unicode.isLowercase c then .lower else .upper

/-- The case that a piece of a special character shows: that of a letter, or of the letter that
a control sequence stands for. -/
def SpecialPiece.letterCase? : SpecialPiece → Option LetterCase
  | .brace _ => none
  | .command name => if isForeignLetter name then name.head?.map LetterCase.ofChar else none
  | .char c => if Unicode.isAlphabetic c then some (LetterCase.ofChar c) else none

/-- The case that a unit shows. Characters inside ordinary braces show none. -/
def TexUnit.letterCase? (u : TexUnit) : Option LetterCase :=
  match u.kind with
  | .opening | .closing => none
  | .char c =>
    if u.level = 0 ∧ Unicode.isAlphabetic c then some (LetterCase.ofChar c) else none
  | .special raw => (specialPieces raw).findSome? SpecialPiece.letterCase?

/-- The case of the first letter of a word, if it has a letter outside ordinary braces. -/
def wordCase? (word : Text) : Option LetterCase := (scan word).findSome? TexUnit.letterCase?

/-- The first unit of a word that is no brace. -/
def firstLetter (word : Text) : Text :=
  (((scan word).find? (!·.isBrace)).map TexUnit.text).getD []

/-- The word abbreviated: the first letters of its parts between hyphens, with a period and a
hyphen between them. -/
def abbreviate (word : Text) : Text :=
  Text.join ".-".toList (((splitAtLevel0 (· == '-') word).map firstLetter).filter (· ≠ []))

/-- The text with a period at its end, unless it ends a sentence already. Closing braces at the
end are looked through, and a text without any other character stays as it is. -/
def addPeriod (s : Text) : Text :=
  match (s.reverse.dropWhile (· == '}')).head? with
  | none => s
  | some c => if c = '.' ∨ c = '?' ∨ c = '!' then s else s ++ ['.']

end Bibliography.Tex
