import Bibliography.NameFormat.Reader
import Bibliography.Text.Table

set_option autoImplicit false

/-! # Formats that were read before

A bibliography prints all its names by a few patterns, so the format of a pattern is kept once it is
read. -/

namespace Bibliography

/-- The formats that are kept, each under its pattern. -/
structure FormatCache where
  formats : Table NameFormat
  /-- Each is the format of its pattern. -/
  ofPattern_eq : ∀ pattern f, formats.get? pattern = some f → NameFormat.ofPattern pattern = .ok f

namespace FormatCache

def empty : FormatCache := ⟨[], nofun⟩

def insert (known : FormatCache) (pattern : Text) (f : NameFormat)
    (hf : NameFormat.ofPattern pattern = .ok f) : FormatCache where
  formats := known.formats.set pattern f
  ofPattern_eq other g hg := by
    rw [Table.get?_set] at hg
    split at hg
    · next heq =>
      cases hg
      rw [heq, hf]
    · exact known.ofPattern_eq other g hg

/-- The format of a pattern: one that is kept, or one that is read and then kept. A pattern with a
fault leaves no trace. -/
def format (known : FormatCache) (pattern : Text) : Except PatternFault NameFormat × FormatCache :=
  match known.formats.get? pattern with
  | some f => (.ok f, known)
  | none =>
    match hf : NameFormat.ofPattern pattern with
    | .ok f => (.ok f, known.insert pattern f hf)
    | .error fault => (.error fault, known)

/-- Whatever is kept, a pattern has the format that it describes. -/
theorem fst_format (known : FormatCache) (pattern : Text) :
    (known.format pattern).1 = NameFormat.ofPattern pattern := by
  unfold format
  split
  · next f hf => exact (known.ofPattern_eq pattern f hf).symm
  · split
    · next hf => exact hf.symm
    · next hf => exact hf.symm

end FormatCache

end Bibliography
