import Bibliography.Integer
import Bibliography.Style.Command
import Bibliography.Style.SyntaxFault
import Bibliography.Text.Cursor

set_option autoImplicit false

/-! # Reading styles

A command is a word with a fixed number of arguments in braces. Between words, arguments and
tokens there may be white space and comments, which run from `%` to the end of the line. Names
end at white space, a brace, a quote or a comment. -/

namespace Bibliography.Style

/-- A fault and the bytes that it is about. -/
structure Misreading where
  fault : SyntaxFault
  start : Nat
  stop : Nat
  deriving Repr

namespace Reader

/-! ## Space between tokens -/

/-- Cuts a text after its white space and comments; `inComment` tells whether it starts inside
one. -/
def splitSpace (inComment : Bool) : Text → Text × Text
  | [] => ([], [])
  | c :: rest =>
    if inComment ∨ isAsciiSpace c ∨ c = '%' then
      let (space, rest) := splitSpace (if inComment then c ≠ '\n' else c = '%') rest
      (c :: space, rest)
    else ([], c :: rest)

/-- The cursor after white space and comments. -/
def skipSpace (c : Cursor) : Cursor :=
  let (space, rest) := splitSpace false c.rest
  c.past space rest

theorem length_skipSpace_le (c : Cursor) : (skipSpace c).length ≤ c.length := by
  have general (s : Text) : ∀ b, (splitSpace b s).2.length ≤ s.length := by
    induction s with
    | nil => intro b; simp [splitSpace]
    | cons c s ih =>
      intro b
      rw [splitSpace]
      split
      · exact Nat.le_succ_of_le (ih _)
      · exact Nat.le_refl _
  exact general c.rest false

/-! ## Tokens -/

def endsName (c : Char) : Bool := isAsciiSpace c || c == '{' || c == '}' || c == '%' || c == '"'

/-- The number that decimal digits write. -/
def digitsValue (digits : Text) : Nat :=
  digits.foldl (fun n c => 10 * n + (c.toNat - '0'.toNat)) 0

/-- The integer that a text writes: decimal digits, perhaps after a minus sign. -/
def integer? (s : Text) : Option Int :=
  let digits := if s.head? = some '-' then s.tail else s
  let n : Int := digitsValue digits
  let n := if s.head? = some '-' then -n else n
  if digits ≠ [] ∧ digits.all Char.isDigit ∧ inRange n then some n else none

/-- A token without its block structure. -/
inductive Lexeme where
  | opening
  | closing
  | token (t : Token)

def takeName (c : Cursor) : Text × Cursor := c.takeWhile (!endsName ·)

/-- What starts with the character `ch`, which is the next one, and the cursor after it. -/
def takeLexeme (ch : Char) (c : Cursor) : Except Misreading (Lexeme × Cursor) :=
  if ch = '{' then .ok (.opening, c.next)
  else if ch = '}' then .ok (.closing, c.next)
  else if ch = '"' then
    let (s, after) := c.next.takeWhile fun d => d ≠ '"' && d ≠ '\n'
    if after.head? = some '"' then .ok (.token (.string s), after.next)
    else .error ⟨.unterminatedString, c.offset, after.offset⟩
  else if ch = '#' then
    let (literal, after) := takeName c.next
    match integer? literal with
    | some n => .ok (.token (.integer n), after)
    | none => .error ⟨.invalidInteger ('#' :: literal), c.offset, after.offset⟩
  else if ch = '\'' then
    let (name, after) := takeName c.next
    if name = [] then .error ⟨.missingName, c.offset, after.offset⟩
    else .ok (.token (.quoted name.fold), after)
  else
    let (name, after) := takeName c
    if ch.isDigit then .error ⟨.digitName name, c.offset, after.offset⟩
    else .ok (.token (.name name.fold), after)

/-- A lexeme is not empty. -/
theorem length_of_takeLexeme {ch : Char} {c d : Cursor} {l : Lexeme} (hc : c.head? = some ch)
    (hs : endsName ch = false ∨ ch = '{' ∨ ch = '}' ∨ ch = '"')
    (h : takeLexeme ch c = .ok (l, d)) : d.length < c.length := by
  have hlt := Cursor.length_next_lt hc
  unfold takeLexeme at h
  split at h
  · cases h; exact hlt
  · split at h
    · cases h; exact hlt
    · split at h
      · simp only at h
        split at h
        · cases h
          refine Nat.lt_of_le_of_lt (Cursor.length_next_le _) (Nat.lt_of_le_of_lt ?_ hlt)
          exact Cursor.length_takeWhile_le _ _
        · cases h
      · split at h
        · simp only at h
          split at h
          · cases h
            exact Nat.lt_of_le_of_lt (Cursor.length_takeWhile_le _ _) hlt
          · cases h
        · split at h
          · simp only at h
            split at h
            · cases h
            · cases h
              exact Nat.lt_of_le_of_lt (Cursor.length_takeWhile_le _ _) hlt
          · simp only at h
            split at h
            · cases h
            · cases h
              apply Cursor.length_takeWhile_lt
              obtain ⟨rest, offset, line⟩ := c
              cases rest with
              | nil => simp [Cursor.head?] at hc
              | cons x rest =>
                obtain rfl : x = ch := by simpa [Cursor.head?] using hc
                have hx : endsName x = false := by simp_all
                simp [Cursor.takeWhile, hx]

/-- What is left after the space before a token starts with no space. -/
theorem head?_skipSpace {c : Cursor} {ch : Char} (h : (skipSpace c).head? = some ch) :
    endsName ch = false ∨ ch = '{' ∨ ch = '}' ∨ ch = '"' := by
  have general (s : Text) : ∀ b ch, (splitSpace b s).2.head? = some ch →
      isAsciiSpace ch = false ∧ ch ≠ '%' := by
    induction s with
    | nil => intro b ch h; simp [splitSpace] at h
    | cons c s ih =>
      intro b ch h
      rw [splitSpace] at h
      split at h
      · exact ih _ _ h
      · rename_i hn
        obtain rfl : c = ch := by simpa using h
        simp_all
  obtain ⟨h₁, h₂⟩ := general c.rest false ch h
  by_cases h₃ : ch = '{' <;> by_cases h₄ : ch = '}' <;> by_cases h₅ : ch = '"' <;>
    simp_all [endsName]

/-- The tokens up to the brace that closes the block they are in. `outer` holds the blocks around
it, innermost first, each with the offset of its brace and its tokens so far, last first; `opened`
and `read` are the same for the block itself. -/
def takeTokens (outer : List (Nat × List Token)) (opened : Nat) (read : List Token) (c : Cursor) :
    Except Misreading (List Token × Cursor) :=
  match h : (skipSpace c).head? with
  | none => .error ⟨.unbalancedBraces, opened, opened + 1⟩
  | some ch =>
    match _h' : takeLexeme ch (skipSpace c) with
    | .error e => .error e
    | .ok (.token t, d) => takeTokens outer opened (t :: read) d
    | .ok (.opening, d) => takeTokens ((opened, read) :: outer) (skipSpace c).offset [] d
    | .ok (.closing, d) =>
      match outer with
      | [] => .ok (read.reverse, d)
      | (opened, before) :: outer => takeTokens outer opened (.block read.reverse :: before) d
termination_by c.length
decreasing_by
  all_goals
    exact Nat.lt_of_lt_of_le (length_of_takeLexeme h (head?_skipSpace h) ‹_›)
      (length_skipSpace_le c)

theorem length_of_takeTokens (outer : List (Nat × List Token)) (opened : Nat) (read : List Token)
    (c : Cursor) : ∀ {ts : List Token} {e : Cursor},
      takeTokens outer opened read c = .ok (ts, e) → e.length < c.length := by
  fun_induction takeTokens outer opened read c with
  | case1 => intro ts e h; cases h
  | case2 => intro ts e h; cases h
  | case3 outer opened read c ch hch t d hl ih =>
    intro ts e h
    have h₁ := length_of_takeLexeme hch (head?_skipSpace hch) hl
    have h₂ := length_skipSpace_le c
    have h₃ := ih h
    omega
  | case4 outer opened read c ch hch d hl ih =>
    intro ts e h
    have h₁ := length_of_takeLexeme hch (head?_skipSpace hch) hl
    have h₂ := length_skipSpace_le c
    have h₃ := ih h
    omega
  | case5 opened read c ch hch d hl =>
    intro ts e h
    cases h
    have h₁ := length_of_takeLexeme hch (head?_skipSpace hch) hl
    have h₂ := length_skipSpace_le c
    omega
  | case6 opened read c ch hch d hl opened' before outer ih =>
    intro ts e h
    have h₁ := length_of_takeLexeme hch (head?_skipSpace hch) hl
    have h₂ := length_skipSpace_le c
    have h₃ := ih (by simpa using h)
    omega

/-! ## Arguments -/

/-- The words that start commands, in lower case, with their numbers of arguments. -/
def arities : List (String × Nat) :=
  [("entry", 3), ("function", 2), ("macro", 2), ("integers", 1), ("strings", 1), ("execute", 1),
    ("iterate", 1), ("reverse", 1), ("read", 0), ("sort", 0)]

/-- The arguments of a command whose word starts at `start`: as many as are missing to
`expected`, after `found` of them. -/
def takeArguments (word : Text) (start expected : Nat) :
    Nat → Cursor → Except Misreading (List (List Token) × Cursor)
  | 0, c => .ok ([], c)
  | missing + 1, c =>
    let c := skipSpace c
    if c.head? = some '{' then
      match takeTokens [] c.offset [] c.next with
      | .error e => .error e
      | .ok (argument, c) =>
        match takeArguments word start expected missing c with
        | .error e => .error e
        | .ok (arguments, c) => .ok (argument :: arguments, c)
    else
      .error ⟨.argumentCount (word.map Char.toUpper) expected (expected - (missing + 1)), start,
        c.offset⟩

theorem length_of_takeArguments {word : Text} {start expected : Nat} :
    ∀ {missing : Nat} {c d : Cursor} {args : List (List Token)},
      takeArguments word start expected missing c = .ok (args, d) → d.length ≤ c.length := by
  intro missing
  induction missing with
  | zero => intro c d args h; cases h; exact Nat.le_refl _
  | succ n ih =>
    intro c d args h
    rw [takeArguments] at h
    split at h
    · split at h
      · cases h
      · rename_i argument c₁ ht
        split at h
        · cases h
        · rename_i arguments c₂ hr
          cases h
          have h₁ := length_of_takeTokens _ _ _ _ ht
          have h₂ := ih hr
          have h₃ := Cursor.length_next_le (skipSpace c)
          have h₄ := length_skipSpace_le c
          omega
    · cases h

def namesOf : List Token → Except SyntaxFault (List Text)
  | [] => .ok []
  | .name s :: ts => (s :: ·) <$> namesOf ts
  | t :: _ => .error (.expectedName t)

def nameOf (command : String) (ts : List Token) : Except SyntaxFault Text := do
  match ← namesOf ts with
  | [name] => .ok name
  | names => .error (.nameCount command names.length)

/-- The command of a word, in lower case, with its arguments. -/
def commandOf (word : String) (arguments : List (List Token)) : Except SyntaxFault Command :=
  match word, arguments with
  | "entry", [fields, integers, strings] =>
    return .entry (← namesOf fields) (← namesOf integers) (← namesOf strings)
  | "integers", [names] => return .integers (← namesOf names)
  | "strings", [names] => return .strings (← namesOf names)
  | "function", [name, body] => return .function (← nameOf "FUNCTION" name) body
  | "macro", [name, value] => do
    let name ← nameOf "MACRO" name
    match value with
    | [.string value] => return .abbreviation name value
    | _ => throw (.abbreviationValue name)
  | "read", _ => return .read
  | "sort", _ => return .sort
  | "execute", [name] => return .execute (← nameOf "EXECUTE" name)
  | "iterate", [name] => return .iterate (← nameOf "ITERATE" name)
  | "reverse", [name] => return .reverse (← nameOf "REVERSE" name)
  | _, _ => throw (.unknownCommand word.toList)

/-! ## Commands -/

/-- A command with the bytes it takes up. -/
structure PlacedCommand where
  command : Command
  start : Nat
  stop : Nat

/-- The command at a cursor that stands on its first character `ch`, and the cursor after it. -/
def takeCommand (ch : Char) (c : Cursor) : Except Misreading (PlacedCommand × Cursor) :=
  let (word, after) := c.takeWhile Char.isAlpha
  if word = [] then .error ⟨.expectedCommand ch, c.offset, c.offset + ch.utf8Size⟩
  else
    let lower := String.ofList word.asciiLower
    match arities.lookup lower with
    | none => .error ⟨.unknownCommand word, c.offset, after.offset⟩
    | some expected =>
      match takeArguments word c.offset expected expected after with
      | .error e => .error e
      | .ok (arguments, last) =>
        if (skipSpace last).head? = some '{' then
          .error ⟨.argumentCount (word.map Char.toUpper) expected (expected + 1), c.offset,
            last.offset⟩
        else
          match commandOf lower arguments with
          | .error fault => .error ⟨fault, c.offset, last.offset⟩
          | .ok command => .ok (⟨command, c.offset, last.offset⟩, last)

/-- A command is not empty. -/
theorem length_of_takeCommand {ch : Char} {c d : Cursor} {p : PlacedCommand}
    (h : takeCommand ch c = .ok (p, d)) : d.length < c.length := by
  unfold takeCommand at h
  simp only at h
  split at h
  · cases h
  · rename_i hw
    have h₁ := Cursor.length_takeWhile_lt hw
    split at h
    · cases h
    · split at h
      · cases h
      · rename_i arguments last ha
        have h₂ := length_of_takeArguments ha
        split at h
        · cases h
        · split at h
          · cases h
          · cases h
            omega

def takeCommands (c : Cursor) : Except Misreading (List PlacedCommand) :=
  match (skipSpace c).head? with
  | none => .ok []
  | some ch =>
    match _h : takeCommand ch (skipSpace c) with
    | .error e => .error e
    | .ok (command, d) => (command :: ·) <$> takeCommands d
termination_by c.length
decreasing_by exact Nat.lt_of_lt_of_le (length_of_takeCommand ‹_›) (length_skipSpace_le c)

/-- Commands with their places. `rest` is what follows the place `l`, and the commands come in the
order of their offsets. -/
def locate (file : Nat) : Location → Text → List PlacedCommand → Program
  | _, _, [] => []
  | l, rest, p :: ps =>
    let (start, rest) := Location.advance (p.start - l.offset) l rest
    let (stop, rest) := Location.advance (p.stop - start.offset) start rest
    ⟨p.command, ⟨file, start, stop⟩⟩ :: locate file stop rest ps

end Reader

/-- The style that a text writes. `file` is the number of the source. -/
def Program.ofText (source : Text) (file : Nat) : Except (SyntaxFault × SourceSpan) Program :=
  match Reader.takeCommands (Cursor.start source) with
  | .error e => .error (e.fault, .ofOffsets file e.start e.stop source)
  | .ok commands => .ok (Reader.locate file ⟨0, 0, 0⟩ source commands)

end Bibliography.Style
