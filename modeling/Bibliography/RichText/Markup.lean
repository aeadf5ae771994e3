import Bibliography.RichText.Basic

set_option autoImplicit false

/-! # Markups

A markup says how literals, symbols and tagged spans are written: `latex` is what goes into a
bibliography, `html` and `plain` show the same tree elsewhere. -/

namespace Bibliography

/-- How rich text is written. -/
structure Markup where
  /-- The spelling of a character of a literal. -/
  escape : Char → Text
  symbol : Symbol → Text
  /-- The text of a span, given its tag and the text inside. -/
  span : Text → Text → Text

namespace Markup

def latex : Markup where
  escape c := [c]
  symbol
    | .nbsp => "~".toList
    | .ndash => "--".toList
  span tag body := '\\' :: tag ++ '{' :: body ++ ['}']

def html : Markup where
  escape
    | '&' => "&amp;".toList
    | '<' => "&lt;".toList
    | '>' => "&gt;".toList
    | '"' => "&quot;".toList
    | c => [c]
  symbol
    | .nbsp => "&nbsp;".toList
    | .ndash => "&ndash;".toList
  span tag body := '<' :: tag ++ '>' :: body ++ "</".toList ++ tag ++ ['>']

def plain : Markup where
  escape c := [c]
  symbol
    | .nbsp => [' ']
    | .ndash => ['-']
  span _ body := body

end Markup

namespace RichText

mutual

/-- The tree written in a markup. -/
def render (m : Markup) : RichText → Text
  | .lit s => s.flatMap m.escape
  | .symbol s => m.symbol s
  | .span tag children => m.span tag (renderAll m children)
  | .row children => renderAll m children
  | .null => []

def renderAll (m : Markup) : List RichText → Text
  | [] => []
  | t :: ts => render m t ++ renderAll m ts

end

end RichText

end Bibliography
