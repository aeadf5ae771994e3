import Bibliography.Tex.Error
import Bibliography.Tex.Special

set_option autoImplicit false

/-! # Length, width and balance of a text

The length of a text is the number of its units that are no braces. Its width is the sum of the
widths of its characters in the font cmr10, in hundredths of a point. A text is balanced when
every brace has its partner, special characters or not. -/

namespace Bibliography.Tex

/-- The number of units that are no braces. -/
def length (s : Text) : Nat := (scan s).countP (!·.isBrace)

/-! ## Balance -/

/-- Whether a text that is read with `open` braces open closes these and all its own. -/
def closes : Nat → Text → Bool
  | opened, [] => opened == 0
  | opened, c :: rest =>
    if c = '{' then closes (opened + 1) rest
    else if c = '}' then opened != 0 && closes (opened - 1) rest
    else closes opened rest

/-- Whether every brace of the text is matched. -/
def isBalanced (s : Text) : Bool := closes 0 s

/-- Fails on a text with an unmatched brace. -/
def checkBraces (s : Text) : Except TextError Unit :=
  if isBalanced s then .ok () else .error (.unmatchedBraces s)

/-! ## Width -/

/-- The widths of the printable ASCII characters, the blank first. -/
def asciiWidths : List Nat :=
  [278, 278, 500, 833, 500, 833, 778, 278, 389, 389, 500, 778, 278, 333, 278, 500,
   500, 500, 500, 500, 500, 500, 500, 500, 500, 500,
   278, 278, 278, 778, 472, 472, 778,
   750, 708, 722, 764, 681, 653, 785, 750, 361, 514, 778, 625, 917,
   750, 778, 681, 778, 736, 556, 722, 750, 750, 1028, 750, 750, 611,
   278, 500, 278, 500, 0, 278,
   500, 556, 444, 556, 444, 306, 500, 556, 278, 306, 528, 278, 833,
   556, 500, 556, 528, 392, 394, 389, 556, 528, 722, 528, 528, 444,
   500, 1000, 500, 500]

/-- The width of a character; only printable ASCII characters have one. -/
def charWidth (c : Char) : Nat :=
  if c.toNat < 32 then 0 else asciiWidths.getD (c.toNat - 32) 0

/-- The width of a control sequence: that of the letter it stands for, if any. -/
def commandWidth (name : Text) : Nat :=
  if !isForeignLetter name then 0
  else if name = "ss".toList then 500
  else if name = "ae".toList then 722
  else if name = "oe".toList then 778
  else if name = "AE".toList then 903
  else if name = "OE".toList then 1014
  else (name.head?.map charWidth).getD 0

/-- The width of a piece of a special character; braces and blanks have none. -/
def SpecialPiece.width : SpecialPiece → Nat
  | .brace _ => 0
  | .command name => commandWidth name
  | .char c => if Unicode.isWhiteSpace c then 0 else charWidth c

def TexUnit.width (u : TexUnit) : Nat :=
  match u.kind with
  | .opening => charWidth '{'
  | .closing => charWidth '}'
  | .char c => charWidth c
  | .special raw => (specialPieces raw).foldr (fun p total => p.width + total) 0

def width (s : Text) : Nat := (scan s).foldr (fun u total => u.width + total) 0

end Bibliography.Tex
