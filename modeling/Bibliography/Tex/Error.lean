import Bibliography.Text.Basic

set_option autoImplicit false

/-! # What can be wrong with a text -/

namespace Bibliography.Tex

inductive TextError where
  /-- A case mode that starts with none of `l`, `u` and `t`. -/
  | invalidCaseMode (mode : Text)
  /-- A substring that starts at position 0; positions count from 1, or from -1 backwards. -/
  | substringStartZero
  /-- Output with an unmatched brace. -/
  | unmatchedBraces (text : Text)
  deriving DecidableEq, Repr

def TextError.message : TextError → String
  | .invalidCaseMode mode =>
    "Invalid case mode '" ++ String.ofList mode ++ "': must start with 'l', 'u' or 't'"
  | .substringStartZero => "Substring start position must not be 0"
  | .unmatchedBraces text => "String has unmatched braces: " ++ String.ofList text

end Bibliography.Tex
