import Bibliography.Text.Basic

set_option autoImplicit false

/-! # Tokens

The body of a style function is a row of tokens, some of which are blocks with a row of their
own. Names are in lower case. -/

namespace Bibliography.Style

inductive Token where
  | integer (n : Int)
  | string (s : Text)
  /-- A name that is run or whose value is pushed. -/
  | name (s : Text)
  /-- A name that is pushed as a reference. -/
  | quoted (s : Text)
  /-- A function without a name. -/
  | block (body : List Token)
  deriving Repr

namespace Token

mutual

/-- Decides whether two tokens are equal. -/
def same : Token → Token → Bool
  | .integer m, .integer n => m == n
  | .string s, .string t => s == t
  | .name s, .name t => s == t
  | .quoted s, .quoted t => s == t
  | .block b, .block d => sameAll b d
  | _, _ => false

/-- Decides whether two rows of tokens are equal. -/
def sameAll : List Token → List Token → Bool
  | [], [] => true
  | t :: ts, u :: us => same t u && sameAll ts us
  | _, _ => false

end

instance : BEq Token := ⟨same⟩

mutual

def text : Token → Text
  | .integer n => '#' :: (toString n).toList
  | .string s => '"' :: s ++ ['"']
  | .name s => s
  | .quoted s => '\'' :: s
  | .block body => '{' :: texts body ++ [' ', '}']

/-- The written form of a row of tokens, each after a blank. -/
def texts : List Token → Text
  | [] => []
  | t :: ts => ' ' :: text t ++ texts ts

end

end Token

end Bibliography.Style
