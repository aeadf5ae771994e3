import Bibliography.Tex.Measure

set_option autoImplicit false

/-! # Parts of a text, counted in units

`textPrefix` takes units from the start and closes the braces that this leaves open.
`substring` takes units from any place, from either end, and leaves the braces between them as
they are. Braces are never counted. -/

namespace Bibliography.Tex

/-! ## From the start -/

/-- The first `n` units of a row that are no braces, with the braces among them. Opening braces
wait in `pending` until something follows them that is kept; those before the first unit that is
left out are dropped. -/
def keepUnits (pending : Text) : Nat → List TexUnit → Text
  | _, [] => pending
  | n, u :: us =>
    match u.kind with
    | .opening => keepUnits (pending ++ ['{']) n us
    | .closing => pending ++ '}' :: keepUnits [] n us
    | .char _ | .special _ =>
      match n with
      | 0 => []
      | n + 1 => pending ++ u.text ++ keepUnits [] n us

/-- The text with the braces closed that it leaves open. -/
def closeBraces (s : Text) : Text := s ++ List.replicate (depth s) '}'

/-- The first `n` units of the text that are no braces, as a text that leaves no brace open;
nothing when `n` is negative. -/
def textPrefix (s : Text) (n : Int) : Text :=
  if n < 0 then [] else closeBraces (keepUnits [] n.toNat (scan s))

/-! ## From any place -/

/-- The row after its first `n` units that are no braces. -/
def dropUnits : Nat → List TexUnit → List TexUnit
  | 0, us => us
  | _, [] => []
  | n + 1, u :: us => if u.isBrace then dropUnits (n + 1) us else dropUnits n us

/-- The row up to its `n`-th unit that is no brace, that one included. -/
def takeUnits : Nat → List TexUnit → List TexUnit
  | 0, _ => []
  | _, [] => []
  | n + 1, u :: us => u :: if u.isBrace then takeUnits (n + 1) us else takeUnits n us

/-- The units from number `first` to number `last`, counted from 0 without the braces. A range
that touches an end of the row takes in the braces there. -/
def unitRange (us : List TexUnit) (count first last : Nat) : List TexUnit :=
  let tail := if first = 0 then us else (dropUnits first us).dropWhile TexUnit.isBrace
  if last + 1 = count then tail else takeUnits (last + 1 - first) tail

/-- The first and last unit of the range of `len` units of `count` that starts at position
`start`, counted from 1 and to the right, or from -1 and to the left; nothing if no unit is in
it. -/
def rangeOf? (count : Nat) (start len : Int) : Option (Nat × Nat) :=
  if len ≤ 0 then none
  else if 0 < start then
    if count < start then none
    else some ((start - 1).toNat, (start - 1 + min len (count - start + 1) - 1).toNat)
  else
    if count + start < 0 ∨ start = 0 then none
    else some ((count + start - min len (count + start + 1) + 1).toNat, (count + start).toNat)

/-- The part of the text that starts at position `start` and is `len` units long, less where the
text ends before. -/
def substring (s : Text) (start len : Int) : Except TextError Text :=
  if start = 0 then .error .substringStartZero
  else
    match rangeOf? (length s) start len with
    | none => .ok []
    | some (first, last) => .ok (TexUnit.texts (unitRange (scan s) (length s) first last))

end Bibliography.Tex
