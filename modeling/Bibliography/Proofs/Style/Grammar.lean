import Bibliography.Style.Reader

set_option autoImplicit false

/-! # The language of styles

A style is a row of commands, a command is a word with arguments in braces, and an argument is a row
of tokens. Here is which texts write which rows and commands; which text writes a single token is a
parameter, since a reader accepts more spellings of a token than a printer uses.
-/

namespace Bibliography.Style

/-! ## Space -/

/-- White space and whole comments, which run from `%` to the end of the line. -/
inductive IsSpace : Text → Prop
  | nil : IsSpace []
  | blank {c : Char} {s : Text} (hc : isAsciiSpace c = true) (hs : IsSpace s) : IsSpace (c :: s)
  | comment {words s : Text} (hwords : '\n' ∉ words) (hs : IsSpace s) :
      IsSpace ('%' :: words ++ '\n' :: s)

/-- What may stand at the end of a style: space, once its last line is ended. The last comment needs
no newline of its own. -/
def IsGap (s : Text) : Prop := IsSpace (s ++ ['\n'])

theorem IsSpace.append {s t : Text} (hs : IsSpace s) (ht : IsSpace t) : IsSpace (s ++ t) := by
  induction hs with
  | nil => exact ht
  | blank hc _ ih => exact .blank hc ih
  | comment hwords _ ih =>
    rw [List.append_assoc, List.cons_append]
    exact .comment hwords ih

theorem IsSpace.isGap {s : Text} (hs : IsSpace s) : IsGap s :=
  hs.append (.blank (by decide) .nil)

theorem isSpace_blank : IsSpace [' '] := .blank (by decide) .nil

/-- Space starts with white space or a comment. -/
theorem IsSpace.head? {s : Text} (hs : IsSpace s) {c : Char} (hc : s.head? = some c) :
    isAsciiSpace c = true ∨ c = '%' := by
  cases hs with
  | nil => cases hc
  | blank hblank _ => exact Or.inl (Option.some.inj hc ▸ hblank)
  | comment _ _ => exact Or.inr (Option.some.inj hc).symm

/-! ## Tokens -/

/-- A text without characters that end a name. -/
structure IsWord (s : Text) : Prop where
  ne_nil : s ≠ []
  inside : ∀ c ∈ s, Reader.endsName c = false

/-- A word that does not start like an integer or a quoted name. -/
structure IsName (s : Text) : Prop extends IsWord s where
  sharp : s.head? ≠ some '#'
  quote : s.head? ≠ some '\''
  digit : ∀ c, s.head? = some c → c.isDigit = false

/-- The inside of a string. -/
def IsQuotable (s : Text) : Prop := ∀ c ∈ s, c ≠ '"' ∧ c ≠ '\n'

namespace Token

/-- The texts that a reader takes for a token without a row of its own. Names may be in any letter
case, and an integer may have zeros before it. -/
inductive SpelledAs : Token → Text → Prop
  | integer {n : Int} {s : Text} (hs : Reader.integer? s = some n) :
      SpelledAs (.integer n) ('#' :: s)
  | string {s : Text} (hs : IsQuotable s) : SpelledAs (.string s) ('"' :: s ++ ['"'])
  | name {s : Text} (hs : IsName s) : SpelledAs (.name s.fold) s
  | quoted {s : Text} (hs : IsWord s) : SpelledAs (.quoted s.fold) ('\'' :: s)

/-- The text that a printer writes for a token without a row of its own. -/
def PrintedAs (t : Token) (w : Text) : Prop := (∀ body, t ≠ .block body) ∧ w = t.text

/-- A token with the text behind it: unless the token is a string, whose end is marked, that text
starts with a character that ends names. -/
def IsApart (t : Token) (rest : Text) : Prop :=
  (∃ s, t = .string s) ∨ ∀ c, rest.head? = some c → Reader.endsName c = true

theorem IsApart.endsName {t : Token} {rest : Text} (h : t.IsApart rest)
    (ht : ∀ s, t ≠ .string s) : ∀ c, rest.head? = some c → Reader.endsName c = true := by
  rcases h with ⟨s, hs⟩ | hends
  · exact absurd hs (ht s)
  · exact hends

theorem isApart_nil (t : Token) : t.IsApart [] := Or.inr fun _ hc => by cases hc

theorem isApart_cons (t : Token) {c : Char} (hc : Reader.endsName c = true) (rest : Text) :
    t.IsApart (c :: rest) :=
  Or.inr fun _ hhead => Option.some.inj hhead ▸ hc

/-- What follows behind a row in braces is apart from it. -/
theorem isApart_append_closing (t : Token) {inner rest : Text} :
    t.IsApart (inner ++ '}' :: rest) ↔ t.IsApart inner := by
  cases inner with
  | nil => exact iff_of_true (t.isApart_cons (by decide) rest) t.isApart_nil
  | cons c inner => exact Iff.rfl

end Token

/-! ## Rows -/

variable (spelled : Token → Text → Prop)

/-- The texts that write a row of tokens, where `spelled` says how a token without a row of its own
is written. -/
inductive Row : List Token → Text → Prop
  | nil {space : Text} (hspace : IsSpace space) : Row [] space
  | token {t : Token} {ts : List Token} {space w rest : Text} (hspace : IsSpace space)
      (hw : spelled t w) (hapart : t.IsApart rest) (hrest : Row ts rest) :
      Row (t :: ts) (space ++ w ++ rest)
  | block {body ts : List Token} {space inner rest : Text} (hspace : IsSpace space)
      (hbody : Row body inner) (hrest : Row ts rest) :
      Row (.block body :: ts) (space ++ '{' :: (inner ++ '}' :: rest))

/-- The texts that write the arguments of a command, each a row in braces. -/
inductive Arguments : List (List Token) → Text → Prop
  | nil : Arguments [] []
  | cons {row : List Token} {rows : List (List Token)} {space inner rest : Text}
      (hspace : IsSpace space) (hrow : Row spelled row inner) (hrest : Arguments rows rest) :
      Arguments (row :: rows) (space ++ '{' :: (inner ++ '}' :: rest))

theorem Arguments.eq_nil {spelled : Token → Text → Prop} {rows : List (List Token)} {w : Text}
    (h : Arguments spelled rows w) (hw : w = []) : rows = [] := by
  cases h with
  | nil => rfl
  | cons => simp at hw

/-! ## Commands -/

namespace Command

def arguments : Command → List (List Token)
  | .entry fs is ss => [fs.map .name, is.map .name, ss.map .name]
  | .integers names => [names.map .name]
  | .strings names => [names.map .name]
  | .function name body => [[.name name], body]
  | .abbreviation name value => [[.name name], [.string value]]
  | .read => []
  | .execute name => [[.name name]]
  | .iterate name => [[.name name]]
  | .reverse name => [[.name name]]
  | .sort => []

/-- The texts that write a command: its word, in any letter case, and its arguments. -/
def WrittenAs (c : Command) (w : Text) : Prop :=
  ∃ word rest, w = word ++ rest ∧ word.sameIgnoringAsciiCase c.word.toList = true ∧
    Arguments spelled c.arguments rest

/-- A command with the text behind it: a command that is only a word ends before a letter. -/
def IsApart (c : Command) (rest : Text) : Prop :=
  c.arguments = [] → ∀ ch, rest.head? = some ch → ch.isAlpha = false

end Command

/-- The texts that write a style. -/
inductive Listing : List Command → Text → Prop
  | nil {gap : Text} (hgap : IsGap gap) : Listing [] gap
  | cons {c : Command} {cs : List Command} {space w rest : Text} (hspace : IsSpace space)
      (hw : c.WrittenAs spelled w) (hapart : c.IsApart rest) (hrest : Listing cs rest) :
      Listing (c :: cs) (space ++ w ++ rest)

theorem Listing.prepend {spelled : Token → Text → Prop} {cs : List Command} {s w : Text}
    (h : Listing spelled cs w) (hs : IsSpace s) : Listing spelled cs (s ++ w) := by
  cases h with
  | nil hgap =>
    refine .nil ?_
    rw [IsGap, List.append_assoc]
    exact hs.append hgap
  | cons hspace hw hapart hrest =>
    have hlisting := Listing.cons (hs.append hspace) hw hapart hrest
    simpa only [List.append_assoc] using hlisting

end Bibliography.Style
