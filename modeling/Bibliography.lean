import Bibliography.AuxFile.Reading
import Bibliography.CommandLine.Program
import Bibliography.Configuration
import Bibliography.Database.Provider
import Bibliography.Diagnostic.Report
import Bibliography.Files.Tree
import Bibliography.Job.Basic
import Bibliography.Main
import Bibliography.NameFormat.Layout
import Bibliography.NameFormat.Reader
import Bibliography.Style.Interpreter
import Bibliography.Tex.Case
import Bibliography.Tex.Excerpt
import Bibliography.Tex.Purified
import Bibliography.Tex.Word
import Bibliography.Text.Wrapped
import Bibliography.Toml.Reader
import Bibliography.Proofs.BibText.PlainContents
import Bibliography.Proofs.Citations.Requests
import Bibliography.Proofs.NameFormat.Balance
import Bibliography.Proofs.NameFormat.Grammar
import Bibliography.Proofs.Tex.Braces
import Bibliography.Proofs.Tex.Scan
import Bibliography.Proofs.Tex.Splitting
import Bibliography.Proofs.Tex.Transformed
import Bibliography.Proofs.Text.Order
import Bibliography.Proofs.Citations.Crossrefs
import Bibliography.Proofs.Run.Closure
import Bibliography.Proofs.Run.Frame
import Bibliography.Proofs.Run.Restoration
import Bibliography.Proofs.Run.Fuel
import Bibliography.Proofs.Citations.Agreement
import Bibliography.Proofs.Run.Noninterference
import Bibliography.Proofs.Run.Session
import Bibliography.Proofs.Run.Steps
import Bibliography.Proofs.Output.Balance
import Bibliography.Proofs.Output.Delivery
import Bibliography.Proofs.Run.Chronicle
import Bibliography.Proofs.Run.Confinement
import Bibliography.Proofs.Run.History
import Bibliography.Proofs.Run.Inlining
import Bibliography.Proofs.Run.Locality
import Bibliography.Proofs.Run.Nesting
import Bibliography.Proofs.Run.Runaway
import Bibliography.Proofs.Run.Vocabulary
import Bibliography.Proofs.Style.Printing
import Bibliography.Proofs.Style.Spans
import Bibliography.Proofs.BibText.Division
import Bibliography.Proofs.BibText.FieldPersons
import Bibliography.Proofs.Database.Store
import Bibliography.Proofs.Person.NameList
import Bibliography.Proofs.Run.Blame
import Bibliography.Proofs.Citations.Order
import Bibliography.Proofs.Run.Changes
import Bibliography.Proofs.Files.Writing
import Bibliography.Proofs.Job.Outcome
import Bibliography.Proofs.AuxFile.Expansion
import Bibliography.Proofs.AuxFile.Collection
import Bibliography.Proofs.Run.WellOrdered
import Bibliography.Proofs.Run.Scope
import Bibliography.Proofs.Run.References
import Bibliography.Proofs.Tex.Structure
import Bibliography.Proofs.Tex.Composition
import Bibliography.Proofs.Tex.Prefix
import Bibliography.Proofs.Run.Limits
import Bibliography.Proofs.Tex.Substring
import Bibliography.Proofs.Text.Wrapping
import Bibliography.Proofs.Tex.Recasing
import Bibliography.Proofs.Tex.CaseChange
import Bibliography.Proofs.Person.Decomposition
import Bibliography.Proofs.NameFormat.Length
import Bibliography.Proofs.Tex.Separation
import Bibliography.Proofs.Run.NamePrinting
import Bibliography.Proofs.Tex.Purified
import Bibliography.Proofs.Source.Location
import Bibliography.Proofs.RichText.Rendering
import Bibliography.Proofs.Tex.Rejoining
import Bibliography.Proofs.Tex.Pieces
import Bibliography.Proofs.Tex.PlacedPieces
