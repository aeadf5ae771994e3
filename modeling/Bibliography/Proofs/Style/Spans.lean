import Bibliography.Proofs.Source.Location
import Bibliography.Proofs.Style.Reading

set_option autoImplicit false

/-! # Where commands stand

The commands of a style that is read tile its text (`Tiles`): each has the text that it was read
from to itself, and between two of these texts there is nothing but white space and comments. The
places of a command are the ends of its text, with the row and the column that the characters before
give (`spans_exact`).
-/

namespace Bibliography

namespace Style

/-! ## Texts that commands tile -/

/-- A text that is read, in whatever file, as a single command. -/
def ReadsAlone (w : Text) (c : Command) : Prop :=
  ∀ file, ∃ p, Program.ofText w file = .ok p ∧ p.map (·.command) = [c]

/-- The text of a command is read as that command when it stands alone. -/
theorem readsAlone_of_writtenAs {w : Text} {c : Command} (h : c.WrittenAs Token.SpelledAs w) :
    ReadsAlone w c := by
  intro file
  have hend : c.IsApart [] := fun _ ch hch => by cases hch
  have hlisting := Listing.cons .nil h hend (.nil IsSpace.nil.isGap)
  rw [List.append_nil] at hlisting
  exact (Reader.listing_iff file).1 hlisting

/-- The commands of a style tile what follows behind the text `before`: space, the text of the first
command, space, the text of the second one, and so on, with space at the end. Each command carries
the places at which its text starts and stops. -/
inductive Tiles (file : Nat) : Text → Text → Program → Prop
  | nil {before gap : Text} (hgap : IsGap gap) : Tiles file before gap []
  | cons {before space w rest : Text} {c : LocatedCommand} {p : Program} (hspace : IsSpace space)
      (hne : w ≠ []) (hreads : ReadsAlone w c.command)
      (hspan : c.span = ⟨file, .behind (before ++ space), .behind (before ++ space ++ w)⟩)
      (hrest : Tiles file (before ++ space ++ w) rest p) :
      Tiles file before (space ++ w ++ rest) (c :: p)

theorem tiles_of_places {file : Nat} {c : Cursor} {ps : List Reader.PlacedCommand}
    (h : Reader.Places c ps) {before : Text} (hoffset : c.offset = before.size) :
    Tiles file before c.rest (Reader.locate file (.behind before) c.rest ps) := by
  induction h generalizing before with
  | nil hgap => exact .nil hgap
  | @cons c d e p ps space w hspace hc hw hd hstart hstop _ _ ih =>
    have hstart' : p.start - (Location.behind before).offset = space.size := by
      show p.start - before.size = space.size
      rw [hstart, hc.offset, hoffset]
      omega
    have hstop' : p.stop - (Location.behind (before ++ space)).offset = w.size := by
      show p.stop - Text.size (before ++ space) = w.size
      rw [hstop, hd.offset, hc.offset, hoffset, Text.size_append]
      omega
    have hoffset' : e.offset = Text.size (before ++ space ++ w) := by
      rw [hd.offset, hc.offset, hoffset, Text.size_append, Text.size_append]
    have hne : w ≠ [] := by
      obtain ⟨ch, rest, rfl, -⟩ := Reader.exists_cons_of_writtenAs hw
      exact List.cons_ne_nil _ _
    rw [hc.rest, hd.rest, Reader.locate, hstart', Location.advance_behind]
    dsimp only
    rw [hstop', Location.advance_behind, ← List.append_assoc]
    exact .cons hspace hne (readsAlone_of_writtenAs hw) rfl (ih hoffset')

/-! ## Each command for itself -/

/-- A command is placed on a part of a source from which it is read. -/
def IsPlaced (source : Text) (file : Nat) (c : LocatedCommand) : Prop :=
  ∃ before w rest, source = before ++ w ++ rest ∧ w ≠ [] ∧ ReadsAlone w c.command ∧
    c.span = ⟨file, .behind before, .behind (before ++ w)⟩

variable {file : Nat} {before rest source : Text} {c : LocatedCommand} {p : Program}

theorem Tiles.isPlaced (h : Tiles file before rest p) (hc : c ∈ p) :
    IsPlaced (before ++ rest) file c ∧ before.size ≤ c.span.start.offset := by
  induction h with
  | nil => cases hc
  | @cons before space w rest _ p _ hne hreads hspan _ ih =>
    rcases List.mem_cons.1 hc with rfl | hmem
    · refine ⟨⟨before ++ space, w, rest, by simp only [List.append_assoc], hne, hreads, hspan⟩, ?_⟩
      rw [hspan]
      show before.size ≤ Text.size (before ++ space)
      rw [Text.size_append]
      omega
    · obtain ⟨hplaced, hle⟩ := ih hmem
      rw [Text.size_append, Text.size_append] at hle
      refine ⟨?_, by omega⟩
      simpa only [List.append_assoc] using hplaced

theorem IsPlaced.offsets (h : IsPlaced source file c) :
    c.span.start.offset < c.span.stop.offset ∧ c.span.stop.offset ≤ source.size := by
  obtain ⟨before, w, rest, rfl, hne, -, hspan⟩ := h
  have hpos := Text.size_pos hne
  rw [hspan]
  show before.size < Text.size (before ++ w) ∧
    Text.size (before ++ w) ≤ Text.size (before ++ w ++ rest)
  rw [Text.size_append, Text.size_append, Text.size_append]
  omega

theorem Tiles.pairwise (h : Tiles file before rest p) :
    p.Pairwise fun c d => c.span.stop.offset ≤ d.span.start.offset := by
  induction h with
  | nil => exact .nil
  | cons _ _ _ hspan hrest ih =>
    refine .cons (fun d hd => ?_) ih
    rw [hspan]
    exact (hrest.isPlaced hd).2

/-- **Every command stands where its place says.** The commands tile the source, with nothing but
white space and comments between them. Each is placed on a part of the source of its own, which is
read as just this command, and the ends of the place have the row and the column to which the
characters before lead; the places come one after the other. -/
theorem spans_exact (h : Program.ofText source file = .ok p) :
    Tiles file [] source p ∧
      (∀ c ∈ p, IsPlaced source file c ∧ c.span.start.offset < c.span.stop.offset ∧
        c.span.stop.offset ≤ source.size) ∧
      p.Pairwise fun c d => c.span.stop.offset ≤ d.span.start.offset := by
  obtain ⟨ps, hps, rfl⟩ := Reader.ofText_eq_ok_iff.1 h
  have htiles : Tiles file [] source (Reader.locate file ⟨0, 0, 0⟩ source ps) :=
    tiles_of_places hps rfl
  refine ⟨htiles, fun c hc => ?_, htiles.pairwise⟩
  have hplaced : IsPlaced source file c := (htiles.isPlaced hc).1
  exact ⟨hplaced, hplaced.offsets⟩

/-- A comment with a character of two bytes, and two commands. -/
def twoSample : Text :=
  ['%', 'é', '\n', 'R', 'e', 'a', 'd', '\n', '\n', ' ', 'S', 'O', 'R', 'T']

def twoCommands : Program :=
  [⟨.read, ⟨7, ⟨4, 1, 0⟩, ⟨8, 1, 4⟩⟩⟩, ⟨.sort, ⟨7, ⟨11, 3, 1⟩, ⟨15, 3, 5⟩⟩⟩]

theorem ofText_twoSample : Program.ofText twoSample 7 = .ok twoCommands := by
  have hcomment : IsSpace ('%' :: ['é'] ++ '\n' :: []) := .comment (by decide) .nil
  have hlines : IsSpace ['\n', '\n', ' '] :=
    .blank (by decide) (.blank (by decide) isSpace_blank)
  have hread : Command.read.WrittenAs Token.SpelledAs ['R', 'e', 'a', 'd'] :=
    ⟨['R', 'e', 'a', 'd'], [], rfl, by decide, .nil⟩
  have hsort : Command.sort.WrittenAs Token.SpelledAs ['S', 'O', 'R', 'T'] :=
    ⟨['S', 'O', 'R', 'T'], [], rfl, by decide, .nil⟩
  have hplaces : Reader.Places (.start twoSample) [⟨.read, 4, 8⟩, ⟨.sort, 11, 15⟩] :=
    .cons hcomment (Cursor.passes_of_rest rfl) hread (Cursor.passes_of_rest rfl) rfl rfl
      (fun _ ch hch => by rw [← Option.some.inj hch]; decide)
      (.cons hlines (Cursor.passes_of_rest rfl) hsort (Cursor.passes_of_rest rfl) rfl rfl
        (fun _ ch hch => by cases hch) (.nil IsSpace.nil.isGap))
  exact Reader.ofText_eq_ok_iff.2 ⟨_, hplaces, rfl⟩

theorem spans_exact_twoSample :
    Program.ofText twoSample 7 = .ok twoCommands ∧ Tiles 7 [] twoSample twoCommands ∧
      (∀ c ∈ twoCommands, IsPlaced twoSample 7 c) ∧
      twoCommands.Pairwise fun c d => c.span.stop.offset ≤ d.span.start.offset := by
  obtain ⟨htiles, hplaced, hordered⟩ := spans_exact ofText_twoSample
  exact ⟨ofText_twoSample, htiles, fun c hc => (hplaced c hc).1, hordered⟩

end Style

end Bibliography
