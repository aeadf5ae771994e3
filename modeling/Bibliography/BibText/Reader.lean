import Bibliography.BibText.Item
import Bibliography.Database.Error
import Bibliography.Text.Cursor

set_option autoImplicit false

/-! # Reading the items of a database file

An item starts with `@` and a type, and stands between braces or parentheses. All other text is
skipped. Reading stops at the first fault; what was read of the item that it stands in is kept,
because the values in it may still call for warnings. -/

namespace Bibliography.BibText

/-- A fault and the line where it was noticed. -/
structure Stuck where
  line : Nat
  fault : BibFault
  deriving DecidableEq, Repr

def stuckAt (c : Cursor) (fault : BibFault) : Stuck := ⟨c.line, fault⟩

/-! ## Characters -/

/-- The characters of field names and abbreviations. -/
def isNameChar (c : Char) : Bool := c.isAlphanum || "!$&*+-./:;<>?[]^_`|".toList.contains c

def closingOf? (c : Char) : Option Char :=
  if c = '{' then some '}' else if c = '(' then some ')' else none

def openingOf (close : Char) : Char := if close = ')' then '(' else '{'

/-- The cursor after a character that must stand there. -/
def expect (ch : Char) (c : Cursor) : Except Stuck Cursor :=
  if c.head? = some ch then .ok c.next else .error (stuckAt c (.expected ch))

/-! ## Groups and quotes -/

/-- What stands before the delimiter that closes `level` open ones, and what follows it. -/
def takeGroup (close : Char) : Nat → Text → Option (Text × Text)
  | _, [] => none
  | level, c :: rest =>
    if c = openingOf close then (takeGroup close (level + 1) rest).map fun r => (c :: r.1, r.2)
    else if c = close ∧ level ≤ 1 then some ([], rest)
    else
      (takeGroup close (if c = close then level - 1 else level) rest).map fun r => (c :: r.1, r.2)

/-- What stands before the quote outside braces that ends a quoted text, and what follows it. -/
def takeQuoted : Nat → Text → Option (Text × Text)
  | _, [] => none
  | level, c :: rest =>
    if c = '"' ∧ level = 0 then some ([], rest)
    else
      (takeQuoted (if c = '{' then level + 1 else if c = '}' then level - 1 else level) rest).map
        fun r => (c :: r.1, r.2)

/-- The group that `close` ends, and the cursor after it. -/
def takeDelimited (close : Char) (c : Cursor) : Except Stuck (Text × Cursor) :=
  match takeGroup close 1 c.rest with
  | some (taken, rest) => .ok (taken, c.past taken rest)
  | none => .error (stuckAt c.atEnd (.unclosed close))

/-! ## Values -/

def takePiece (c : Cursor) : Except Stuck (BibPiece × Cursor) :=
  match c.head? with
  | none => .error (stuckAt c .missingValue)
  | some ch =>
    if ch = '"' then
      match takeQuoted 0 c.next.rest with
      | some (taken, rest) => .ok (.text taken, c.next.past taken rest)
      | none => .error (stuckAt c.atEnd .unterminatedQuote)
    else if ch = '{' then
      match takeDelimited '}' c.next with
      | .ok (taken, c) => .ok (.text taken, c)
      | .error e => .error e
    else if ch.isDigit then
      let (digits, c) := c.takeWhile Char.isDigit
      .ok (.text digits, c)
    else if isNameChar ch then
      let (name, c) := c.takeWhile isNameChar
      .ok (.name name c.line, c)
    else .error (stuckAt c .missingValue)

theorem length_of_takeGroup {close : Char} {s : Text} : ∀ {level : Nat} {r : Text × Text},
    takeGroup close level s = some r → r.2.length < s.length := by
  induction s with
  | nil => intro level r h; simp [takeGroup] at h
  | cons c s ih =>
    intro level r h
    rw [takeGroup] at h
    split at h
    · obtain ⟨q, hq, rfl⟩ := Option.map_eq_some_iff.1 h
      exact Nat.lt_succ_of_lt (ih (r := q) hq)
    · split at h
      · cases h; simp
      · obtain ⟨q, hq, rfl⟩ := Option.map_eq_some_iff.1 h
        exact Nat.lt_succ_of_lt (ih (r := q) hq)

theorem length_of_takeQuoted {s : Text} : ∀ {level : Nat} {r : Text × Text},
    takeQuoted level s = some r → r.2.length < s.length := by
  induction s with
  | nil => intro level r h; simp [takeQuoted] at h
  | cons c s ih =>
    intro level r h
    rw [takeQuoted] at h
    split at h
    · cases h; simp
    · obtain ⟨q, hq, rfl⟩ := Option.map_eq_some_iff.1 h
      exact Nat.lt_succ_of_lt (ih (r := q) hq)

theorem length_of_takeDelimited {close : Char} {c c' : Cursor} {taken : Text}
    (h : takeDelimited close c = .ok (taken, c')) : c'.length < c.length := by
  unfold takeDelimited at h
  split at h
  · rename_i heq
    cases h
    exact length_of_takeGroup heq
  · cases h

/-- A piece is not empty in its written form. -/
theorem length_of_takePiece {c c' : Cursor} {p : BibPiece} (h : takePiece c = .ok (p, c')) :
    c'.length < c.length := by
  unfold takePiece at h
  split at h
  · cases h
  · rename_i ch hch
    have hlt := Cursor.length_next_lt hch
    have taken (q : Char → Bool) (hq : q ch = true) : (c.takeWhile q).2.length < c.length := by
      apply Cursor.length_takeWhile_lt
      obtain ⟨rest, offset, line⟩ := c
      cases rest with
      | nil => simp [Cursor.head?] at hch
      | cons d rest =>
        obtain rfl : d = ch := by simpa [Cursor.head?] using hch
        simp [Cursor.takeWhile, hq]
    split at h
    · split at h
      · rename_i heq
        cases h
        exact Nat.lt_trans (length_of_takeQuoted heq) hlt
      · cases h
    · split at h
      · split at h
        · rename_i heq
          cases h
          exact Nat.lt_trans (length_of_takeDelimited heq) hlt
        · cases h
      · split at h
        · rename_i hd
          cases h
          exact taken _ hd
        · split at h
          · rename_i hn
            cases h
            exact taken _ hn
          · cases h

/-- A value: its pieces, also where a fault ends it, and the cursor after it and the white space
that follows. -/
def takeValue (c : Cursor) : BibValue × Except Stuck Cursor :=
  match _h : takePiece c with
  | .error e => ([], .error e)
  | .ok (piece, c') =>
    if c'.skipSpace.head? = some '#' then
      let (pieces, result) := takeValue c'.skipSpace.next.skipSpace
      (piece :: pieces, result)
    else ([piece], .ok c'.skipSpace)
termination_by c.length
decreasing_by
  exact Nat.lt_of_le_of_lt
    (Nat.le_trans (Cursor.length_skipSpace_le _)
      (Nat.le_trans (Cursor.length_next_le _) (Cursor.length_skipSpace_le _)))
    (length_of_takePiece ‹_›)

theorem length_of_takeValue (c : Cursor) : ∀ {d : Cursor},
    (takeValue c).2 = .ok d → d.length < c.length := by
  fun_induction takeValue c with
  | case1 c e h => intro c' h'; simp at h'
  | case2 c piece c₁ h hash pieces result heq ih =>
    intro c' h'
    have h₁ := length_of_takePiece h
    have h₂ := ih (d := c') (by rw [heq]; exact h')
    have h₃ := Cursor.length_skipSpace_le c₁.skipSpace.next
    have h₄ := Cursor.length_next_le c₁.skipSpace
    have h₅ := Cursor.length_skipSpace_le c₁
    omega
  | case3 c piece c₁ h hash =>
    intro c' h'
    cases h'
    exact Nat.lt_of_le_of_lt (Cursor.length_skipSpace_le _) (length_of_takePiece h)

/-! ## Fields -/

/-- What a fault leaves: the pieces of the value that it stands in, and the fault. -/
structure Break where
  pending : BibValue
  stuck : Stuck
  deriving DecidableEq, Repr

/-- A field, its name folded, and the cursor after it. -/
def takeField (c : Cursor) : Except Break (BibField × Cursor) :=
  let (name, c) := c.takeWhile isNameChar
  if name = [] then .error ⟨[], stuckAt c .missingName⟩
  else
    match expect '=' c.skipSpace with
    | .error e => .error ⟨[], e⟩
    | .ok c =>
      match takeValue c.skipSpace with
      | (pieces, .error e) => .error ⟨pieces, e⟩
      | (pieces, .ok c) => .ok (⟨name.fold, pieces⟩, c)

theorem length_of_takeField {c c' : Cursor} {f : BibField} (h : takeField c = .ok (f, c')) :
    c'.length < c.length := by
  unfold takeField at h
  simp only at h
  split at h
  · cases h
  · rename_i hname
    split at h
    · cases h
    · rename_i c₁ hexp
      split at h
      · cases h
      · rename_i pieces c₂ hval
        have h₁ := Cursor.length_takeWhile_lt hname
        have h₂ := Cursor.length_skipSpace_le (c.takeWhile isNameChar).2
        have h₃ : c₁.length ≤ (c.takeWhile isNameChar).2.skipSpace.length := by
          unfold expect at hexp
          split at hexp
          · cases hexp; exact Cursor.length_next_le _
          · cases hexp
        have h₄ := Cursor.length_skipSpace_le c₁
        have h₅ := length_of_takeValue c₁.skipSpace (d := c₂) (by rw [hval])
        cases h
        omega

/-- Fields with commas between them up to the closing delimiter, perhaps after a last comma:
the fields, also where a fault ends them, and the cursor after the delimiter. -/
def takeFields (close : Char) (c : Cursor) : List BibField × Except Break Cursor :=
  if c.skipSpace.head? = some close then ([], .ok c.skipSpace.next)
  else
    match _h : takeField c.skipSpace with
    | .error e => ([], .error e)
    | .ok (field, c') =>
      if c'.head? = some ',' then
        let (fields, result) := takeFields close c'.next
        (field :: fields, result)
      else if c'.head? = some close then ([field], .ok c'.next)
      else ([field], .error ⟨[], stuckAt c' (.missingSeparator close)⟩)
termination_by c.length
decreasing_by
  exact Nat.lt_of_le_of_lt (Cursor.length_next_le _)
    (Nat.lt_of_lt_of_le (length_of_takeField ‹_›) (Cursor.length_skipSpace_le _))

theorem length_of_takeFields (close : Char) (c : Cursor) : ∀ {d : Cursor},
    (takeFields close c).2 = .ok d → d.length ≤ c.length := by
  fun_induction takeFields close c with
  | case1 c h =>
    intro c' h'
    cases h'
    exact Nat.le_trans (Cursor.length_next_le _) (Cursor.length_skipSpace_le _)
  | case2 c _ e h => intro c' h'; simp at h'
  | case3 c _ field c₁ h comma fields result heq ih =>
    intro c' h'
    have h₁ := length_of_takeField h
    have h₂ := ih (d := c') (by rw [heq]; exact h')
    have h₃ := Cursor.length_next_le c₁
    have h₄ := Cursor.length_skipSpace_le c
    omega
  | case4 c _ field c₁ h comma hclose =>
    intro c' h'
    cases h'
    have h₁ := length_of_takeField h
    have h₃ := Cursor.length_next_le c₁
    have h₄ := Cursor.length_skipSpace_le c
    omega
  | case5 c _ field c₁ h comma hclose => intro c' h'; simp at h'

/-! ## Items -/

/-- The key and the fields of an entry whose opening delimiter is read. -/
def takeEntry (kind : Text) (close : Char) (c : Cursor) : Option BibItem × Except Break Cursor :=
  let (key, c) := c.skipSpace.takeWhile fun ch => ch ≠ ',' && ch ≠ close && !isAsciiSpace ch
  if key = [] then (none, .error ⟨[], stuckAt c (.missingKey kind)⟩)
  else if c.skipSpace.head? = some close then (some (.entry kind key []), .ok c.skipSpace.next)
  else
    match expect ',' c.skipSpace with
    | .error e => (none, .error ⟨[], e⟩)
    | .ok c =>
      let (fields, result) := takeFields close c
      (some (.entry kind key fields), result)

def takeContent (kind : Text) (close : Char) (c : Cursor) : Option BibItem × Except Break Cursor :=
  if kind = "preamble".toList then
    match takeValue c.skipSpace with
    | (pieces, .error e) => (none, .error ⟨pieces, e⟩)
    | (pieces, .ok c) =>
      match expect close c with
      | .error e => (none, .error ⟨pieces, e⟩)
      | .ok c => (some (.preamble pieces), .ok c)
  else if kind = "string".toList then
    let (fields, result) := takeFields close c
    (some (.definitions fields), result)
  else takeEntry kind close c

/-- The cursor after a comment: a group, or nothing at all. -/
def skipComment (c : Cursor) : Except Break Cursor :=
  match c.head?.bind closingOf? with
  | none => .ok c
  | some close =>
    match takeDelimited close c.next with
    | .error e => .error ⟨[], e⟩
    | .ok (_, c) => .ok c

/-- An item whose `@` is read, also as far as a fault lets it be read, and the cursor after it. A
comment is no item. -/
def takeItem (c : Cursor) : Option BibItem × Except Break Cursor :=
  let (letters, c) := c.skipSpace.takeWhile Char.isAlpha
  let kind := letters.fold
  if kind = [] then (none, .error ⟨[], stuckAt c .missingType⟩)
  else if kind = "comment".toList then (none, skipComment c.skipSpace)
  else
    match c.skipSpace.head?.bind closingOf? with
    | none => (none, .error ⟨[], stuckAt c.skipSpace (.missingDelimiter kind)⟩)
    | some close => takeContent kind close c.skipSpace.next

theorem length_of_expect {ch : Char} {c c' : Cursor} (h : expect ch c = .ok c') :
    c'.length ≤ c.length := by
  unfold expect at h
  split at h
  · cases h; exact Cursor.length_next_le _
  · cases h

theorem length_of_takeEntry {kind : Text} {close : Char} {c c' : Cursor}
    (h : (takeEntry kind close c).2 = .ok c') : c'.length ≤ c.length := by
  unfold takeEntry at h
  simp only at h
  have h₁ := Cursor.length_skipSpace_le c
  have h₂ := Cursor.length_takeWhile_le
    (fun ch => ch ≠ ',' && ch ≠ close && !isAsciiSpace ch) c.skipSpace
  revert h h₂
  generalize (c.skipSpace.takeWhile fun ch => ch ≠ ',' && ch ≠ close && !isAsciiSpace ch) = k
  intro h h₂
  have h₃ := Cursor.length_skipSpace_le k.2
  split at h
  · cases h
  · split at h
    · cases h
      have h₄ := Cursor.length_next_le k.2.skipSpace
      omega
    · split at h
      · cases h
      · rename_i c₁ hexp
        have h₄ := length_of_expect hexp
        have h₅ := length_of_takeFields close c₁ h
        omega

theorem length_of_takeContent {kind : Text} {close : Char} {c c' : Cursor}
    (h : (takeContent kind close c).2 = .ok c') : c'.length ≤ c.length := by
  unfold takeContent at h
  split at h
  · split at h
    · cases h
    · rename_i c₁ hval
      split at h
      · cases h
      · rename_i c₂ hexp
        cases h
        have h₁ := length_of_takeValue c.skipSpace (d := c₁) (by rw [hval])
        have h₂ := length_of_expect hexp
        have h₃ := Cursor.length_skipSpace_le c
        omega
  · split at h
    · exact length_of_takeFields close c h
    · exact length_of_takeEntry h

/-- Reading an item never goes back. -/
theorem length_of_takeItem {c c' : Cursor} (h : (takeItem c).2 = .ok c') :
    c'.length ≤ c.length := by
  unfold takeItem at h
  simp only at h
  have h₁ := Cursor.length_skipSpace_le c
  have h₂ := Cursor.length_takeWhile_le Char.isAlpha c.skipSpace
  revert h h₂
  generalize (c.skipSpace.takeWhile Char.isAlpha) = k
  intro h h₂
  have h₃ := Cursor.length_skipSpace_le k.2
  have h₄ := Cursor.length_next_le k.2.skipSpace
  split at h
  · cases h
  · split at h
    · unfold skipComment at h
      split at h
      · cases h; omega
      · split at h
        · cases h
        · rename_i heq
          cases h
          have h₅ := length_of_takeDelimited heq
          omega
    · split at h
      · cases h
      · have h₅ := length_of_takeContent h
        omega

/-! ## Files -/

/-- The fault that ends the reading of a file: what was read of its item, and the break. -/
structure Failure where
  item : Option BibItem
  break_ : Break
  deriving DecidableEq, Repr

/-- The items from a cursor on, up to the end of the text or the first fault. -/
def takeItems (c : Cursor) : List BibItem × Option Failure :=
  let found := (c.takeWhile (· ≠ '@')).2
  if _h : found.head? = some '@' then
    match _h' : takeItem found.next with
    | (item, .error e) => ([], some ⟨item, e⟩)
    | (item, .ok c') =>
      let (items, failure) := takeItems c'
      (item.toList ++ items, failure)
  else ([], none)
termination_by c.length
decreasing_by
  exact Nat.lt_of_le_of_lt (length_of_takeItem (by rw [‹takeItem _ = _›]))
    (Nat.lt_of_lt_of_le (Cursor.length_next_lt ‹_›) (Cursor.length_takeWhile_le _ _))

def items (s : Text) : List BibItem × Option Failure := takeItems (Cursor.start s)

end Bibliography.BibText
