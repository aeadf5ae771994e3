import Bibliography.Text.Basic

set_option autoImplicit false

/-! # Splitting at brace level 0

Names in a list, words in a name and the comma segments of a name are parts of a text between
separators outside braces. The level counts closing braces as well, so a stray one makes it
negative and hides the separators after it. -/

namespace Bibliography.Tex

def levelAfter (level : Int) (c : Char) : Int :=
  if c = '{' then level + 1 else if c = '}' then level - 1 else level

/-! ## At single characters -/

/-- The parts of a text between the characters at level 0 that satisfy `isSep`, when the text is
read at a given level. -/
def splitAtLevel0From (isSep : Char → Bool) (level : Int) : Text → List Text
  | [] => [[]]
  | c :: rest =>
    let isBrace := c = '{' ∨ c = '}'
    match splitAtLevel0From isSep (levelAfter level c) rest with
    | [] => [[]]
    | part :: parts =>
      if ¬ isBrace ∧ level = 0 ∧ isSep c then [] :: part :: parts else (c :: part) :: parts

/-- The parts of a text between the separators outside braces. -/
def splitAtLevel0 (isSep : Char → Bool) (s : Text) : List Text := splitAtLevel0From isSep 0 s

/-- The words of a name: its parts between white space and ties. -/
def splitWords (s : Text) : List Text :=
  (splitAtLevel0 (fun c => Unicode.isWhiteSpace c || c == '~') s).filter (· ≠ [])

/-- The segments of a name between commas, without white space around them. -/
def splitSegments (s : Text) : List Text := (splitAtLevel0 (· == ',') s).map Text.trim

/-! ## At a separating text -/

/-- Whether `sep` starts the text, in any case of ASCII letters, and does not end it. -/
def separates : Text → Text → Bool
  | [], s => !s.isEmpty
  | _ :: _, [] => false
  | a :: sep, c :: s => a.toLower == c.toLower && separates sep s

/-- Splits a text that is read at a given level. `part` is what was read of the current part,
last character first, and `skip` the number of characters that still belong to a separator.
`atStart` holds at the first character of all, where no separator is recognised. -/
def splitTextFrom (sep : Text) (atStart : Bool) (level : Int) (skip : Nat) (part : Text) :
    Text → List Text
  | [] => [part.reverse]
  | c :: rest =>
    match skip with
    | skip + 1 => splitTextFrom sep false (levelAfter level c) skip part rest
    | 0 =>
      if c ≠ '{' ∧ c ≠ '}' ∧ level = 0 ∧ ¬ atStart ∧ separates sep (c :: rest) then
        part.reverse :: match sep with
          | [] => splitTextFrom sep false level 0 [c] rest
          | _ :: sep' => splitTextFrom sep false level sep'.length [] rest
      else splitTextFrom sep false (levelAfter level c) 0 (c :: part) rest

/-- The parts of a text between the occurrences of `sep` outside braces, in any case of ASCII
letters, without white space around them. An occurrence at the very start or end separates
nothing. -/
def splitText (s sep : Text) : List Text := (splitTextFrom sep true 0 0 [] s).map Text.trim

def splitNameList (s : Text) : List Text :=
  if s.isBlank then [] else splitText s " and ".toList

end Bibliography.Tex
