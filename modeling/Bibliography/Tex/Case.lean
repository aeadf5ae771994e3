import Bibliography.Tex.Error
import Bibliography.Tex.Special

set_option autoImplicit false

/-! # Change of case

Only text at brace level 0 changes; braces protect their content. In a special character the
control sequences stay as written and the other letters change. In a title the first letter
keeps its case, and so does the first letter after a colon and white space. -/

namespace Bibliography.Tex

/-- The three ways to change the case of a text. -/
inductive CaseMode where
  | lower
  | upper
  /-- Lower case but for the first letter of the text and of each subtitle. -/
  | title
  deriving DecidableEq, Repr

/-- The mode that a text names by its first letter, in either case. -/
def CaseMode.ofText? (mode : Text) : Except TextError CaseMode :=
  match mode.head?.map Char.toLower with
  | some 'l' => .ok .lower
  | some 'u' => .ok .upper
  | some 't' => .ok .title
  | _ => .error (.invalidCaseMode mode)

def CaseMode.convert : CaseMode → Char → Text
  | .upper, c => Unicode.upperOf c
  | .lower, c | .title, c => Unicode.lowerOf c

/-- What a title remembers while it is read. -/
structure TitleState where
  /-- The next letter keeps its case. -/
  keepNext : Bool
  /-- Nothing but white space was read since the last colon. -/
  afterColon : Bool
  deriving DecidableEq, Repr

namespace TitleState

def start : TitleState := ⟨true, false⟩

/-- The state after text that starts no subtitle. -/
def inside : TitleState := ⟨false, false⟩

/-- The state after a character at level 0. -/
def afterChar (st : TitleState) (c : Char) : TitleState :=
  if c = ':' then ⟨false, true⟩
  else if Unicode.isWhiteSpace c then ⟨st.keepNext || st.afterColon, st.afterColon⟩
  else inside

def afterUnit (st : TitleState) (u : TexUnit) : TitleState :=
  match u.kind with
  | .opening => if u.level = 1 then inside else st
  | .closing => st
  | .char c => if u.level = 0 then st.afterChar c else st
  | .special _ => inside

end TitleState

/-- A piece of a special character with its case changed, or kept. -/
def SpecialPiece.changeCase (mode : CaseMode) (keep : Bool) (p : SpecialPiece) : Text :=
  match p with
  | .char c => if keep then [c] else mode.convert c
  | _ => p.text

def TexUnit.changeCase (mode : CaseMode) (st : TitleState) (u : TexUnit) : Text :=
  match u.kind with
  | .char c =>
    if u.level ≠ 0 then [c]
    else if mode = .title ∧ st.keepNext ∧ !Unicode.isWhiteSpace c then [c]
    else mode.convert c
  | .special raw =>
    (specialPieces raw).flatMap (SpecialPiece.changeCase mode (mode = .title && st.keepNext))
  | _ => u.text

def changeUnits (mode : CaseMode) : TitleState → List TexUnit → Text
  | _, [] => []
  | st, u :: us => u.changeCase mode st ++ changeUnits mode (st.afterUnit u) us

def changeCase (s : Text) (mode : CaseMode) : Text := changeUnits mode .start (scan s)

end Bibliography.Tex
