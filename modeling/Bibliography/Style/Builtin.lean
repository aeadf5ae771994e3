import Bibliography.Text.Basic

set_option autoImplicit false

/-! # The built-in functions -/

namespace Bibliography.Style

/-- The functions that every style can use. -/
inductive Builtin where
  | greater
  | less
  | equal
  | plus
  | minus
  /-- Joins two strings, or multiplies two integers. -/
  | times
  | assign
  | addPeriod
  | callType
  | changeCase
  | chrToInt
  | cite
  | duplicate
  | empty
  | formatName
  | ifThenElse
  | intToChr
  | intToStr
  | missing
  | newline
  | numNames
  | pop
  | preamble
  | purify
  | quote
  | skip
  | stack
  | substring
  | swap
  | textLength
  | textPrefix
  | top
  | type
  | warning
  | while
  | width
  | write
  deriving DecidableEq, Repr

namespace Builtin

def name : Builtin → String
  | .greater => ">"
  | .less => "<"
  | .equal => "="
  | .plus => "+"
  | .minus => "-"
  | .times => "*"
  | .assign => ":="
  | .addPeriod => "add.period$"
  | .callType => "call.type$"
  | .changeCase => "change.case$"
  | .chrToInt => "chr.to.int$"
  | .cite => "cite$"
  | .duplicate => "duplicate$"
  | .empty => "empty$"
  | .formatName => "format.name$"
  | .ifThenElse => "if$"
  | .intToChr => "int.to.chr$"
  | .intToStr => "int.to.str$"
  | .missing => "missing$"
  | .newline => "newline$"
  | .numNames => "num.names$"
  | .pop => "pop$"
  | .preamble => "preamble$"
  | .purify => "purify$"
  | .quote => "quote$"
  | .skip => "skip$"
  | .stack => "stack$"
  | .substring => "substring$"
  | .swap => "swap$"
  | .textLength => "text.length$"
  | .textPrefix => "text.prefix$"
  | .top => "top$"
  | .type => "type$"
  | .warning => "warning$"
  | .while => "while$"
  | .width => "width$"
  | .write => "write$"

def all : List Builtin :=
  [.greater, .less, .equal, .plus, .minus, .times, .assign, .addPeriod, .callType, .changeCase,
    .chrToInt, .cite, .duplicate, .empty, .formatName, .ifThenElse, .intToChr, .intToStr, .missing,
    .newline, .numNames, .pop, .preamble, .purify, .quote, .skip, .stack, .substring, .swap,
    .textLength, .textPrefix, .top, .type, .warning, .while, .width, .write]

end Builtin

end Bibliography.Style
