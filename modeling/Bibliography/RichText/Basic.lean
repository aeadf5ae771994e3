import Bibliography.Tex.Measure

set_option autoImplicit false

/-! # Rich text

Formatted names are trees of literals, typographic symbols and tagged spans, which a markup
(`Bibliography.RichText.Markup`) turns into text. Trees are built with `literal`, `tagged` and
`seq`, which leave out what is empty: a tree built with them renders as nothing only when it is
`null`. -/

namespace Bibliography

inductive Symbol where
  /-- A space at which no line is broken (a tie). -/
  | nbsp
  /-- The dash between numbers. -/
  | ndash
  deriving DecidableEq, Repr

/-- Text whose markup is not chosen yet. -/
inductive RichText where
  | lit (s : Text)
  | symbol (s : Symbol)
  /-- A span with a meaning, such as `em`. -/
  | span (tag : Text) (children : List RichText)
  | row (children : List RichText)
  /-- Nothing. -/
  | null
  deriving Repr

namespace RichText

def isNull : RichText → Bool
  | .null => true
  | _ => false

def tie : RichText := .symbol .nbsp

/-- A literal; an empty one is nothing. -/
def literal (s : Text) : RichText := if s = [] then .null else .lit s

/-- A row of trees without those that are nothing. -/
def seq (children : List RichText) : RichText :=
  match children.filter (!·.isNull) with
  | [] => .null
  | kept => .row kept

/-- A tagged span of trees without those that are nothing. -/
def tagged (tag : Text) (children : List RichText) : RichText :=
  match children.filter (!·.isNull) with
  | [] => .null
  | kept => .span tag kept

/-- Parts with a separator between neighbours. -/
def intersperse (separator : RichText) : List RichText → List RichText
  | [] => []
  | [part] => [part]
  | part :: parts => part :: separator :: intersperse separator parts

/-- The tree of a TeX text, in which each `~` is a tie. -/
def ofTex (s : Text) : RichText :=
  seq (intersperse tie ((s.splitWhere (· == '~')).map literal))

/-! ## Length -/

mutual

/-- The length in TeX units; a symbol counts as one. -/
def length : RichText → Nat
  | .lit s => Tex.length s
  | .symbol _ => 1
  | .span _ children => lengths children
  | .row children => lengths children
  | .null => 0

def lengths : List RichText → Nat
  | [] => 0
  | t :: ts => length t + lengths ts

end

end RichText

end Bibliography
