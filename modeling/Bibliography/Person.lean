import Bibliography.Tex.Word

set_option autoImplicit false

/-! # Persons

A personal name has five parts, each a list of words: first and middle names, the small words
before the last name (von, de la), the last name, and what follows it (Jr). A name is written in
one of three forms, told apart by its commas:

* `First von Last`,
* `von Last, First`,
* `von Last, Jr, First`.

Words that start with a lower-case letter belong to the small words. In the first form these
reach from the first such word to the last; with a comma they reach from the start to the last.
The final word before a comma, or of the whole name, always belongs to the last name. -/

namespace Bibliography

/-- A personal name in its five parts. -/
structure Person where
  first : List Text := []
  middle : List Text := []
  /-- The small words before the last name. -/
  prelast : List Text := []
  last : List Text := []
  /-- What follows the last name. -/
  lineage : List Text := []
  deriving DecidableEq, Repr

namespace Person

/-- Whether a word starts with a lower-case letter. -/
def isSmallWord (word : Text) : Bool := Tex.wordCase? word == some .lower

/-- A list cut after its last element that satisfies `p`; all of it is on the right when none
does. -/
def splitAfterLast (p : Text → Bool) (words : List Text) : List Text × List Text :=
  ((words.reverse.dropWhile (!p ·)).reverse, (words.reverse.takeWhile (!p ·)).reverse)

/-- The first word and the others, as the first and the middle names. -/
def withFirst (words : List Text) (p : Person) : Person :=
  { p with first := words.take 1, middle := words.drop 1 }

/-- The small words and the last name from the words `init`, then `final`. -/
def withLast (init : List Text) (final : Text) (p : Person) : Person :=
  let (prelast, last) := splitAfterLast isSmallWord init
  { p with prelast := prelast, last := last ++ [final] }

/-- The person of a name without commas. -/
def ofFirstVonLast (words : List Text) : Person :=
  match words.getLast? with
  | none => {}
  | some final =>
    let init := words.dropLast
    withFirst (init.takeWhile (!isSmallWord ·))
      (withLast (init.dropWhile (!isSmallWord ·)) final {})

/-- The person of what stands before the first comma of a name. -/
def ofVonLast (words : List Text) : Person :=
  match words.getLast? with
  | none => {}
  | some final => withLast words.dropLast final {}

/-- The person of a name; nothing when the name has more than two commas. -/
def ofText? (name : Text) : Option Person :=
  let name := name.trim
  if name = [] then some {}
  else
    match Tex.splitSegments name with
    | [whole] => some (ofFirstVonLast (Tex.splitWords whole))
    | [vonLast, first] =>
      some (withFirst (Tex.splitWords first) (ofVonLast (Tex.splitWords vonLast)))
    | [vonLast, lineage, first] =>
      some (withFirst (Tex.splitWords first)
        { ofVonLast (Tex.splitWords vonLast) with lineage := Tex.splitWords lineage })
    | _ => none

def ofParts (first middle prelast last lineage : Text) : Person where
  first := Tex.splitWords first
  middle := Tex.splitWords middle
  prelast := Tex.splitWords prelast
  last := Tex.splitWords last
  lineage := Tex.splitWords lineage

def givenNames (p : Person) : List Text := p.first ++ p.middle

def isEmpty (p : Person) : Bool :=
  p.first.isEmpty && p.middle.isEmpty && p.prelast.isEmpty && p.last.isEmpty && p.lineage.isEmpty

/-- Words with blanks between them. -/
def joinWords (words : List Text) : Text := Text.join [' '] words

/-- The name written with commas: `von Last, Jr, First Middle`. -/
def toText (p : Person) : Text :=
  let segments :=
    if p.lineage ≠ [] then [joinWords p.lineage, joinWords p.givenNames]
    else if joinWords p.givenNames ≠ [] then [joinWords p.givenNames]
    else []
  Text.join ", ".toList (joinWords (p.prelast ++ p.last) :: segments)

end Person

end Bibliography
