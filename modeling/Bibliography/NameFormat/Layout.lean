import Bibliography.NameFormat.Basic
import Bibliography.Person
import Bibliography.RichText.Markup

set_option autoImplicit false

/-! # Laying out a name

A group prints the words of its part with ties and spaces between them: a word shorter than
three units is held to the next one by a tie, and so are the last two words. -/

namespace Bibliography

namespace RichText

/-- `tie` after a word shorter than three units, `space` after any other. -/
def tieOrSpace (word tie space : RichText) : RichText := if word.length < 3 then tie else space

/-- The words after the second one of a longer list, with what stands before each: a tie before
the last, a space before the others. -/
def joinRest (tie space : RichText) : List RichText → List RichText
  | [] => []
  | [word] => [tie, word]
  | word :: words => space :: word :: joinRest tie space words

/-- Words joined as in a name: two are tied together; of more, the first two are joined by what
suits the first, the last two by a tie, and the others by spaces. -/
def joinWords (words : List RichText) (tie space : RichText) : RichText :=
  match words with
  | first :: second :: third :: rest =>
    seq (first :: tieOrSpace first tie space :: second :: joinRest tie space (third :: rest))
  | words => seq (intersperse tie words)

end RichText

namespace NameGroup

def words (g : NameGroup) (p : Person) : List Text :=
  match g.part with
  | .given => p.givenNames
  | .prelast => p.prelast
  | .last => p.last
  | .lineage => p.lineage

def joined (g : NameGroup) (words : List Text) : RichText :=
  let words := words.map fun w => RichText.literal (if g.abbreviated then Tex.abbreviate w else w)
  match g.delimiter with
  | some delimiter => .seq (RichText.intersperse (.ofTex delimiter) words)
  | none =>
    if g.abbreviated then
      RichText.joinWords words (.seq [.literal ['.'], .tie]) (.literal ['.', ' '])
    else RichText.joinWords words .tie (.literal [' '])

/-- What follows a group. -/
def tieAfter (g : NameGroup) (formatted : RichText) : RichText :=
  match g.tie with
  | .absent => .null
  | .discretionary => RichText.tieOrSpace formatted .tie (.literal [' '])
  | .forced => .tie

def format (g : NameGroup) (p : Person) : RichText :=
  match g.words p with
  | [] => .null
  | words =>
    let formatted := RichText.seq [.ofTex g.before, g.joined words, .ofTex g.after]
    .seq [formatted, g.tieAfter formatted]

end NameGroup

namespace NameFormat

def format (f : NameFormat) (p : Person) : RichText :=
  .seq (f.map fun
    | .literal s => .ofTex s
    | .group g => g.format p)

/-- A name printed for LaTeX, with ties written as `~`. -/
def formatLatex (f : NameFormat) (p : Person) : Text := (f.format p).render .latex

end NameFormat

end Bibliography
