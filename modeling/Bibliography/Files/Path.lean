import Bibliography.Text.Basic
import Bibliography.Unicode.Printable

set_option autoImplicit false

/-! # Paths

A path is a text with slashes between its components. Empty components and single dots mean
nothing, except for a dot in front; two paths with the same components are equal
(`Path.same`). -/

namespace Bibliography

abbrev Path := Text

namespace Path

/-! ## Components -/

def isAbsolute (p : Path) : Bool := p.head? == some '/'

/-- A component that names no place of its own. -/
def isVoid (segment : Text) : Bool := segment == [] || segment == ['.']

/-- What stands before the first slash, and the components after it without the void ones at the
end. -/
def segments (p : Path) : Text × List Text :=
  match p.splitWhere (· == '/') with
  | [] => ([], [])
  | first :: rest => (first, (rest.reverse.dropWhile isVoid).reverse)

def ofSegments (first : Text) (rest : List Text) : Path := Text.join ['/'] (first :: rest)

/-- The components of a path: the first as it is, the others without the void ones. -/
def components (p : Path) : Text × List Text :=
  match p.splitWhere (· == '/') with
  | [] => ([], [])
  | first :: rest => (first, rest.filter (!isVoid ·))

def same (p q : Path) : Bool := p.components == q.components && p.isAbsolute == q.isAbsolute

/-! ## Parts -/

/-- The directory of a path; nothing for the root and the empty path. -/
def parent? (p : Path) : Option Path :=
  match p.segments with
  | (first, []) => if first = [] then none else some []
  | (first, rest) =>
    match (rest.dropLast.reverse.dropWhile isVoid).reverse with
    | [] => if first = [] then some ['/'] else some first
    | rest => some (ofSegments first rest)

/-- The directory of a path, empty when there is none. -/
def directory (p : Path) : Path := p.parent?.getD []

/-- The last component, if it is a name. -/
def fileName? (p : Path) : Option Text :=
  let (first, rest) := p.segments
  let last := rest.getLast?.getD first
  if isVoid last ∨ last = ['.', '.'] then none else some last

/-- The name of a file without its extension, and the extension: what follows the last dot,
unless the dot starts the name. -/
def splitExtension (name : Text) : Text × Option Text :=
  let extension := (name.reverse.takeWhile (· ≠ '.')).reverse
  let stem := name.take (name.length - extension.length - 1)
  if stem = [] ∨ extension.length = name.length then (name, none) else (stem, some extension)

def extension? (p : Path) : Option Text := p.fileName?.bind fun name => (splitExtension name).2

/-! ## New paths -/

/-- `q` seen from the directory `p`; an absolute path stays as it is. -/
def join (p q : Path) : Path :=
  if q.isAbsolute ∨ p = [] then q
  else if p.getLast? = some '/' then p ++ q
  else p ++ '/' :: q

/-- The path without the extension of its file name; the dot before it stays. -/
def withoutExtension (p : Path) : Path :=
  match p.extension? with
  | none => p
  | some extension => p.take (p.length - extension.length)

/-- The path with the extension of its file name replaced, or added. A path that has no file name
without its extension, such as `..b`, gets none. -/
def withExtension (p : Path) (extension : Text) : Path :=
  let p := p.withoutExtension
  match p.fileName? with
  | none => p
  | some name =>
    let named := (splitExtension name).1 ++ '.' :: extension
    match p.segments with
    | (_, []) => named
    | (first, rest) => ofSegments first (rest.dropLast ++ [named])

/-! ## In messages -/

/-- The path as a message shows it. -/
def toString (p : Path) : String := String.ofList p

def quotedChar (c : Char) : Text :=
  if c = '\x00' then ['\\', '0']
  else if c = '\t' then ['\\', 't']
  else if c = '\r' then ['\\', 'r']
  else if c = '\n' then ['\\', 'n']
  else if c = '\\' ∨ c = '"' then ['\\', c]
  else if Unicode.isPrintable c then [c]
  else ['\\', 'u', '{'] ++ Nat.toDigits 16 c.toNat ++ ['}']

/-- The path between quotes, with what cannot be shown written by its code. -/
def quoted (p : Path) : String := String.ofList ('"' :: p.flatMap quotedChar ++ ['"'])

end Path

end Bibliography
