import Bibliography.Source.Location

set_option autoImplicit false

/-! # Registered sources

Diagnostics name sources by the numbers under which these were registered. -/

namespace Bibliography

/-- A registered source: its path, and its content if it is known. -/
structure SourceFile where
  path : Text
  content : Option Text
  deriving DecidableEq, Repr

/-- The sources of a run; the number of a source is its place in the list. -/
abbrev SourceRegistry := List SourceFile

namespace SourceRegistry

def file? (r : SourceRegistry) (file : Nat) : Option SourceFile := r[file]?

def content? (r : SourceRegistry) (file : Nat) : Option Text := (r.file? file).bind (·.content)

def toJson (r : SourceRegistry) : JsonValue :=
  .object [("files", .array (r.map fun f =>
    .object (("path", .string (String.ofList f.path)) ::
      JsonValue.optional "content" (f.content.map fun s => .string (String.ofList s)))))]

end SourceRegistry

end Bibliography
