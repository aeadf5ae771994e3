import Bibliography.Tex.Special

set_option autoImplicit false

/-! # Purified texts

Sort keys are made of purified texts: letters, digits and blanks, nothing else. White space,
hyphens and ties become blanks. In a special character the control sequences vanish, unless they
name a foreign letter, which is then spelled out. -/

namespace Bibliography.Tex

def SpecialPiece.purified : SpecialPiece → Text
  | .brace _ => []
  | .command name => if isForeignLetter name then name else []
  | .char c => if Unicode.isAlphanumeric c then [c] else []

/-- What is left of a character outside special characters. -/
def purifiedChar (c : Char) : Text :=
  if Unicode.isAlphanumeric c then [c]
  else if Unicode.isWhiteSpace c ∨ c = '-' ∨ c = '~' then [' ']
  else []

def TexUnit.purified (u : TexUnit) : Text :=
  match u.kind with
  | .opening | .closing => []
  | .char c => purifiedChar c
  | .special raw => (specialPieces raw).flatMap SpecialPiece.purified

/-- The text with everything but letters, digits and blanks taken out. -/
def purify (s : Text) : Text := (scan s).flatMap TexUnit.purified

end Bibliography.Tex
