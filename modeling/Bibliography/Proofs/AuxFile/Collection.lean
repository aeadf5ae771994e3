import Bibliography.Proofs.AuxFile.Expansion

set_option autoImplicit false

/-! # What aux files are found to ask for

Reading obeys the commands of a document in the order of their expansion and gives what they add
up to (`read_eq_outcome`): the keys and the names of databases in their order, each where it comes
first (`Text.firstsBy`), and the one style that all commands agree on. If two of them do not agree,
reading fails at the first that differs from those before it, unless a file that cannot be read
comes earlier (`obeyAll_eq_error_iff`).

Main statement: `read_collects_expansion`.
-/

namespace Bibliography

/-! ## Texts without repetitions -/

/-- The texts whose image under `f` is neither in `earlier` nor the image of a text before. -/
def Text.firstsBy (f : Text → Text) (earlier : List Text) : List Text → List Text
  | [] => []
  | s :: rest =>
    if f s ∈ earlier then firstsBy f earlier rest else s :: firstsBy f (earlier ++ [f s]) rest

theorem Text.addNew_eq_append_firstsBy {same : Text → Text → Bool} {f : Text → Text}
    (hsame : ∀ s u, same s u = true ↔ f s = f u) (old new : List Text) :
    Text.addNew same old new = old ++ firstsBy f (old.map f) new := by
  induction new generalizing old with
  | nil => simp [addNew, firstsBy]
  | cons s new ih =>
    have hmem : old.any (same · s) = true ↔ f s ∈ old.map f := by
      simp [List.any_eq_true, hsame, List.mem_map]
    rw [addNew, firstsBy]
    by_cases h : f s ∈ old.map f
    · rw [if_pos (hmem.2 h), if_pos h, ih]
    · rw [if_neg (mt hmem.1 h), if_neg h, ih, List.map_append, List.append_assoc]
      rfl

theorem Text.addNew_append (same : Text → Text → Bool) (old new more : List Text) :
    Text.addNew same old (new ++ more) = Text.addNew same (Text.addNew same old new) more := by
  induction new generalizing old with
  | nil => rfl
  | cons s new ih => exact ih _

namespace AuxCommand

/-! ## Keys are not empty -/

/-- A command with a list of items has no empty one. -/
def NoBlanks : AuxCommand → Prop
  | .citations keys => [] ∉ keys
  | .databases names => [] ∉ names
  | _ => True

theorem noBlanks_items (argument : Text) : [] ∉ items argument := by
  intro h
  simpa using (List.mem_filter.1 h).2

theorem noBlanks_of_take? {s after : Text} {c : AuxCommand} (h : take? s = some (c, after)) :
    c.NoBlanks := by
  obtain ⟨kind, hkind, htake⟩ := List.exists_of_findSome?_eq_some h
  rw [takeKind?] at htake
  split at htake
  · dsimp only at htake
    split at htake
    · cases htake
    · cases htake
      simp only [kinds, List.mem_cons, List.not_mem_nil, or_false] at hkind
      obtain rfl | rfl | rfl | rfl := hkind
      · exact noBlanks_items _
      · exact noBlanks_items _
      · trivial
      · trivial
  · cases htake

theorem noBlanks_of_mem_all {s : Text} : ∀ c ∈ all s, c.NoBlanks := by
  have hfrom (s : Text) : ∀ c ∈ allFrom s, c.NoBlanks := by
    fun_induction allFrom s with
    | case1 => exact List.forall_mem_nil _
    | case2 rest command after h ih => exact List.forall_mem_cons.2 ⟨noBlanks_of_take? h, ih⟩
    | case3 rest h ih => exact ih
    | case4 c rest h ih => exact ih
  exact hfrom _

end AuxCommand

namespace AuxContents

open AuxReading

/-! ## Obeying commands -/

def obey (a : AuxContents) (file : Path) : AuxCommand → Except AuxError AuxContents
  | .citations keys => .ok (a.cite keys)
  | .databases names => .ok (a.addDatabases names)
  | .style name => a.setStyle file name
  | .input _ => .ok a

/-- Obeys commands one after the other, up to the first error. -/
def obeyAll (a : AuxContents) : Commands → Except AuxError AuxContents
  | [] => .ok a
  | (file, c) :: cs => a.obey file c >>= fun a => a.obeyAll cs

theorem obeyAll_append (a : AuxContents) (cs ds : Commands) :
    a.obeyAll (cs ++ ds) = a.obeyAll cs >>= fun a => a.obeyAll ds := by
  induction cs generalizing a with
  | nil => rfl
  | cons c cs ih =>
    obtain ⟨file, c⟩ := c
    rw [List.cons_append, obeyAll, obeyAll]
    cases a.obey file c with
    | error e => rfl
    | ok a => exact ih a

def citedKeys (cs : Commands) : List Text :=
  cs.flatMap fun
    | (_, .citations keys) => keys
    | _ => []

def databaseNames (cs : Commands) : List Text :=
  cs.flatMap fun
    | (_, .databases names) => names
    | _ => []

def stylesMet (cs : Commands) : List (Path × Text) :=
  cs.filterMap fun
    | (file, .style name) => some (file, name)
    | _ => none

/-- A style that is settled is the one that was settled before, if any was. -/
theorem of_setStyle_eq_ok {a b : AuxContents} {file : Path} {name : Text}
    (h : a.setStyle file name = .ok b) :
    b = { a with style := some name } ∧ ∀ first, a.style = some first → first = name := by
  rw [setStyle] at h
  cases hstyle : a.style with
  | none =>
    rw [hstyle] at h
    cases h
    exact ⟨rfl, nofun⟩
  | some first =>
    simp only [hstyle] at h
    split at h
    · next heq =>
      cases h
      refine ⟨?_, fun _ h => Option.some.inj h ▸ heq⟩
      rw [← heq, ← hstyle]
    · cases h

theorem setStyle_eq_error_iff {a : AuxContents} {file : Path} {name : Text} {e : AuxError} :
    a.setStyle file name = .error e ↔
      ∃ first, a.style = some first ∧ name ≠ first ∧ e = .secondStyle file first name := by
  rw [setStyle]
  cases a.style with
  | none => simp
  | some first =>
    by_cases heq : first = name
    · simp [heq]
    · simp [heq, Ne.symm heq, eq_comm]

/-- What commands that are obeyed without an error make of the contents `a`. -/
structure Collected (a : AuxContents) (cs : Commands) (b : AuxContents) : Prop where
  citations : b.citations = Text.addNew Text.sameIgnoringAsciiCase a.citations (citedKeys cs)
  databases : b.databases = Text.addNew (· == ·) a.databases (databaseNames cs)
  style : ∀ s ∈ stylesMet cs, b.style = some s.2
  kept : ∀ name, a.style = some name → b.style = some name
  origin : ∀ name, b.style = some name →
    a.style = some name ∨ ∃ file, (file, name) ∈ stylesMet cs

theorem collected_of_obeyAll {a b : AuxContents} {cs : Commands} (h : a.obeyAll cs = .ok b) :
    Collected a cs b := by
  induction cs generalizing a with
  | nil =>
    cases h
    exact ⟨rfl, rfl, List.forall_mem_nil _, fun _ h => h, fun _ h => Or.inl h⟩
  | cons c cs ih =>
    obtain ⟨file, c⟩ := c
    cases c with
    | citations keys =>
      obtain ⟨hcitations, hdatabases, hstyle, hkept, horigin⟩ := ih h
      refine ⟨hcitations.trans ?_, hdatabases, hstyle, hkept, horigin⟩
      exact (Text.addNew_append _ _ _ _).symm
    | databases names =>
      obtain ⟨hcitations, hdatabases, hstyle, hkept, horigin⟩ := ih h
      refine ⟨hcitations, hdatabases.trans ?_, hstyle, hkept, horigin⟩
      exact (Text.addNew_append _ _ _ _).symm
    | style name =>
      rw [obeyAll, obey] at h
      cases hset : a.setStyle file name with
      | error e =>
        rw [hset] at h
        cases h
      | ok a' =>
        rw [hset] at h
        obtain ⟨rfl, hfirst⟩ := of_setStyle_eq_ok hset
        obtain ⟨hcitations, hdatabases, hstyle, hkept, horigin⟩ := ih h
        refine ⟨hcitations, hdatabases, List.forall_mem_cons.2 ⟨hkept name rfl, hstyle⟩, ?_, ?_⟩
        · intro first hfirst'
          rw [hfirst first hfirst']
          exact hkept name rfl
        · intro name' hname'
          obtain heq | ⟨file', hmem⟩ := horigin name' hname'
          · cases heq
            exact Or.inr ⟨file, List.mem_cons_self⟩
          · exact Or.inr ⟨file', List.mem_cons_of_mem _ hmem⟩
    | input name =>
      obtain ⟨hcitations, hdatabases, hstyle, hkept, horigin⟩ := ih h
      exact ⟨hcitations, hdatabases, hstyle, hkept, horigin⟩

/-- The style `second` of the file `file` is the first in a row of styles that is not the style
`first`, which was settled before or is the first of the row. -/
def Disagrees (settled : Option Text) (styles : List (Path × Text)) (file : Path)
    (first second : Text) : Prop :=
  ∃ before after, styles = before ++ (file, second) :: after ∧
    (settled.or (before.head?.map Prod.snd)) = some first ∧ (∀ s ∈ before, s.2 = first) ∧
    second ≠ first

/-- A style that is the settled one, or settles it, does not disagree. -/
theorem disagrees_cons_of_agrees {settled : Option Text} {styles : List (Path × Text)}
    {file file' : Path} {name first second : Text}
    (h : ∀ old, settled = some old → old = name) :
    Disagrees settled ((file', name) :: styles) file first second ↔
      Disagrees (some name) styles file first second := by
  constructor
  · rintro ⟨before, after, hstyles, hfirst, hbefore, hne⟩
    cases before with
    | nil =>
      cases hstyles
      exact absurd (h first (by simpa using hfirst)).symm hne
    | cons s before =>
      cases hstyles
      obtain ⟨hname, hbefore⟩ := List.forall_mem_cons.1 hbefore
      exact ⟨before, after, rfl, congrArg some hname, hbefore, hne⟩
  · rintro ⟨before, after, rfl, hfirst, hbefore, hne⟩
    cases hfirst
    refine ⟨(file', name) :: before, after, rfl, ?_, List.forall_mem_cons.2 ⟨rfl, hbefore⟩, hne⟩
    cases settled with
    | none => rfl
    | some old => exact congrArg some (h old rfl)

/-- A style that is not the settled one disagrees at once. -/
theorem disagrees_cons_of_differs {styles : List (Path × Text)} {file file' : Path}
    {name old first second : Text} (h : name ≠ old) :
    Disagrees (some old) ((file', name) :: styles) file first second ↔
      file = file' ∧ first = old ∧ second = name := by
  constructor
  · rintro ⟨before, after, hstyles, hfirst, hbefore, -⟩
    cases hfirst
    cases before with
    | nil =>
      cases hstyles
      exact ⟨rfl, rfl, rfl⟩
    | cons s before =>
      cases hstyles
      exact absurd (hbefore _ List.mem_cons_self) h
  · rintro ⟨rfl, rfl, rfl⟩
    exact ⟨[], styles, rfl, rfl, List.forall_mem_nil _, h⟩

/-- **Obeying commands fails at the first style that is not the first one.** -/
theorem obeyAll_eq_error_iff {a : AuxContents} {cs : Commands} {e : AuxError} :
    a.obeyAll cs = .error e ↔ ∃ file first second, e = .secondStyle file first second ∧
      Disagrees a.style (stylesMet cs) file first second := by
  induction cs generalizing a with
  | nil => simp [obeyAll, stylesMet, Disagrees]
  | cons c cs ih =>
    obtain ⟨file, c⟩ := c
    cases c with
    | citations keys => exact ih
    | databases names => exact ih
    | input name => exact ih
    | style name =>
      rw [obeyAll, obey]
      have hstyles : stylesMet ((file, .style name) :: cs) = (file, name) :: stylesMet cs := rfl
      rw [hstyles]
      cases hset : a.setStyle file name with
      | error e' =>
        obtain ⟨old, hold, hne, rfl⟩ := setStyle_eq_error_iff.1 hset
        simp only [hold, disagrees_cons_of_differs hne]
        constructor
        · rintro ⟨⟩
          exact ⟨file, old, name, rfl, rfl, rfl, rfl⟩
        · rintro ⟨file', first, second, rfl, rfl, rfl, rfl⟩
          rfl
      | ok a' =>
        obtain ⟨rfl, hagrees⟩ := of_setStyle_eq_ok hset
        simp only [disagrees_cons_of_agrees hagrees]
        exact ih

/-! ## Reading obeys the expansion -/

/-- What reading gives that has obeyed some commands with a result, unless it was stopped. -/
def outcome (result : Except AuxError AuxContents) (stop : Option (Path × FileError)) :
    Except AuxError AuxContents :=
  match result, stop with
  | .error e, _ => .error e
  | .ok _, some (path, e) => .error (.unreadable path e)
  | .ok a, none => .ok a

end AuxContents

namespace AuxReading

variable {t : FileTree} {base path : Path} {seen seen' : List Path} {cs stream : Commands}
variable {stop : Option (Path × FileError)}

/-- What is left to be read behind an expansion leads to the result: the rest of the commands, if
the expansion was obeyed to its end. -/
def Leads (t : FileTree) (base : Path) (seen : List Path) (rest : Commands)
    (obeyed : Except AuxError AuxContents) (stop : Option (Path × FileError))
    (result : Except AuxError AuxContents) : Prop :=
  match obeyed, stop with
  | .ok a, none => ∃ scanned, Reads t ⟨base, seen, rest, a⟩ scanned result
  | obeyed, stop => result = AuxContents.outcome obeyed stop

theorem leads_of_stopped {rest rest' : Commands} {obeyed result : Except AuxError AuxContents}
    {stopped : Path × FileError} (h : Leads t base seen rest obeyed (some stopped) result) :
    Leads t base seen' rest' obeyed (some stopped) result := by
  cases obeyed <;> exact h

theorem leads_of_error {rest rest' : Commands} {e : AuxError}
    {result : Except AuxError AuxContents} {stop' : Option (Path × FileError)}
    (h : Leads t base seen rest (.error e) stop result) :
    Leads t base seen' rest' (.error e) stop' result := by
  cases stop <;> cases stop' <;> exact h

/-- If an expansion was not stopped, obeying it leads to what obeying it gives. -/
theorem leads_outcome (t : FileTree) (base : Path) (seen : List Path)
    (obeyed : Except AuxError AuxContents) (stop : Option (Path × FileError)) :
    Leads t base seen [] obeyed stop (AuxContents.outcome obeyed stop) := by
  cases obeyed with
  | error e => cases stop <;> rfl
  | ok a =>
    cases stop with
    | none => exact ⟨[], .finished rfl⟩
    | some stopped => rfl

theorem advance_kept (base : Path) (seen : List Path) (file : Path) {c : AuxCommand}
    (hc : ∀ name, c ≠ .input name) (cs : Commands) (a : AuxContents) :
    advance ⟨base, seen, (file, c) :: cs, a⟩ =
      match a.obey file c with
      | .error e => .finished (.error e)
      | .ok a => advance ⟨base, seen, cs, a⟩ := by
  cases c with
  | input name => exact absurd rfl (hc name)
  | citations _ | databases _ | style _ => rfl

theorem advance_again {name : Text} (h : hasVisited seen (Path.join base name) = true)
    (file : Path) (cs : Commands) (a : AuxContents) :
    advance ⟨base, seen, (file, .input name) :: cs, a⟩ = advance ⟨base, seen, cs, a⟩ := by
  simp only [advance, obey, h, if_true]

theorem advance_input {name : Text} (h : hasVisited seen (Path.join base name) = false)
    (file : Path) (cs : Commands) (a : AuxContents) :
    advance ⟨base, seen, (file, .input name) :: cs, a⟩ =
      .wants (Path.join base name) ⟨base, Path.join base name :: seen, cs, a⟩ := by
  simp [advance, obey, h]

/-- **Reading goes through the expansion** and on to the rest. -/
theorem Expands.reads (h : Expands t base seen cs stream seen' stop) {a : AuxContents}
    {rest : Commands} {result : Except AuxError AuxContents}
    (hleads : Leads t base seen' rest (a.obeyAll stream) stop result) :
    ∃ scanned, Reads t ⟨base, seen, cs ++ rest, a⟩ scanned result := by
  induction h generalizing a rest result with
  | nil seen => exact hleads
  | @kept seen seen' cs stream stop file c hc _ ih =>
    have hadvance := advance_kept base seen file hc (cs ++ rest) a
    rw [AuxContents.obeyAll] at hleads
    cases hobey : a.obey file c with
    | error e =>
      rw [hobey] at hleads hadvance
      cases stop <;> cases hleads <;> exact ⟨[], .finished hadvance⟩
    | ok a' =>
      rw [hobey] at hleads hadvance
      obtain ⟨scanned, hreads⟩ := ih hleads
      exact ⟨scanned, hreads.congr hadvance⟩
  | @again seen seen' cs stream stop file name hseen _ ih =>
    obtain ⟨scanned, hreads⟩ := ih hleads
    exact ⟨scanned, hreads.congr (advance_again hseen file (cs ++ rest) a)⟩
  | @unreadable seen cs file name e hseen hread =>
    cases hleads
    exact ⟨_, .unreadable (advance_input hseen file (cs ++ rest) a) hread⟩
  | @opened seen seen₁ seen' cs inner outer stop file name text hseen hread _ _ ihinside ihrest =>
    have hadvance := advance_input hseen file (cs ++ rest) a
    rw [AuxContents.obeyAll_append] at hleads
    -- behind the file stands what is left behind the input
    have hinside : Leads t base seen₁ (cs ++ rest) (a.obeyAll inner) none result := by
      cases hinner : a.obeyAll inner with
      | error e =>
        rw [hinner] at hleads
        exact leads_of_error hleads
      | ok a' =>
        rw [hinner] at hleads
        exact ihrest hleads
    obtain ⟨scanned, hreads⟩ := ihinside hinside
    exact ⟨_, .supplied hadvance hread hreads⟩
  | @stopped seen seen₁ cs inner stop file name text hseen hread _ ih =>
    have hadvance := advance_input hseen file (cs ++ rest) a
    obtain ⟨scanned, hreads⟩ := ih (leads_of_stopped hleads)
    exact ⟨_, .supplied hadvance hread hreads⟩

/-- **What is read is what obeying the expansion gives**, if a database and a style are asked
for. -/
theorem read_eq_outcome (h : ExpandsFile t path stream seen stop) :
    AuxContents.read t path =
      (AuxContents.outcome (AuxContents.obeyAll {} stream) stop).bind (·.settled path) := by
  rw [AuxContents.read]
  cases h with
  | unreadable hread =>
    split
    · next e' hread' =>
      cases hread.symm.trans hread'
      rfl
    · next text hread' => cases hread.symm.trans hread'
  | @opened text stream seen stop hread inside =>
    split
    · next e hread' => cases hread.symm.trans hread'
    · next text' hread' =>
      cases hread.symm.trans hread'
      obtain ⟨scanned, hreads⟩ := inside.reads (leads_outcome t path.directory seen _ stop)
      obtain ⟨scanned', hcomplete⟩ := exists_reads_complete (within_start hread')
      rw [List.append_nil] at hreads
      rw [hcomplete.result_eq hreads]
      rfl

/-- What reads well was not stopped, has databases and a style, and is what was obeyed. -/
theorem of_read_eq_ok {a : AuxContents} (h : ExpandsFile t path stream seen stop)
    (hread : AuxContents.read t path = .ok a) :
    stop = none ∧ AuxContents.obeyAll {} stream = .ok a ∧ a.databases ≠ [] ∧
      ∃ name, a.style = some name := by
  rw [read_eq_outcome h] at hread
  cases hobeyed : AuxContents.obeyAll {} stream with
  | error e =>
    rw [hobeyed] at hread
    cases stop <;> cases hread
  | ok b =>
    rw [hobeyed] at hread
    cases stop with
    | some stopped => cases hread
    | none =>
      have hsettled : b.settled path = .ok a := hread
      rw [AuxContents.settled] at hsettled
      split at hsettled
      · cases hsettled
      · next hdatabases =>
        split at hsettled
        · cases hsettled
        · next hstyle =>
          cases hsettled
          exact ⟨rfl, rfl, hdatabases, Option.ne_none_iff_exists'.1 hstyle⟩

/-- Only obeying a style gives the error that it is a second one. -/
theorem read_eq_secondStyle_iff {file : Path} {first second : Text}
    (h : ExpandsFile t path stream seen stop) :
    AuxContents.read t path = .error (.secondStyle file first second) ↔
      AuxContents.obeyAll {} stream = .error (.secondStyle file first second) := by
  rw [read_eq_outcome h]
  cases AuxContents.obeyAll {} stream with
  | error e => cases stop <;> exact Iff.rfl
  | ok b =>
    constructor
    · intro hread
      cases stop with
      | some stopped => cases hread
      | none =>
        have hsettled : b.settled path = .error (.secondStyle file first second) := hread
        rw [AuxContents.settled] at hsettled
        split at hsettled
        · cases hsettled
        · split at hsettled <;> cases hsettled
    · intro hobeyed
      cases hobeyed

theorem noBlanks_citedKeys (h : ExpandsFile t path stream seen stop) :
    [] ∉ AuxContents.citedKeys stream := by
  intro hmem
  obtain ⟨⟨file, c⟩, hc, hkey⟩ := List.mem_flatMap.1 hmem
  have hblanks : c.NoBlanks := h.forall_mem (fun _ => AuxCommand.noBlanks_of_mem_all) _ hc
  cases c with
  | citations keys => exact hblanks hkey
  | databases _ | style _ | input _ => cases hkey

open AuxContents in
/-- **Reading ends and collects what the expansion asks for.** Whatever files there are and however
they input each other, reading scans finitely many files and none of them twice, and the aux file
has an expansion. If reading succeeds, it was not stopped; the citations are the keys of the
expansion, of which none is empty, each unless it equals an earlier one up to the case of ASCII
letters; the databases are those of the expansion without repetitions, at least one; and the style
is the one that every command of the expansion asks for. It fails with a second style exactly if a
style of the expansion, which ends where a file cannot be read, is not the first one, and then names
the first such style. -/
theorem read_collects_expansion (t : FileTree) (path : Path) :
    (∃ scanned, Scans t path scanned (AuxContents.read t path) ∧
      (scanned.Pairwise fun p q => Path.same p q = false) ∧
      scanned.length ≤ (inputs t path.directory).length + 1) ∧
    (∃ stream seen stop, ExpandsFile t path stream seen stop) ∧
    ∀ stream seen stop, ExpandsFile t path stream seen stop →
      (∀ a, AuxContents.read t path = .ok a → stop = none ∧
        a.citations = Text.firstsBy Text.asciiLower [] (citedKeys stream) ∧
        [] ∉ citedKeys stream ∧
        a.databases = Text.firstsBy id [] (databaseNames stream) ∧ a.databases ≠ [] ∧
        ∃ name, a.style = some name ∧ (∃ file, (file, name) ∈ stylesMet stream) ∧
          ∀ s ∈ stylesMet stream, s.2 = name) ∧
      ∀ file first second, AuxContents.read t path = .error (.secondStyle file first second) ↔
        Disagrees none (stylesMet stream) file first second := by
  refine ⟨exists_scans t path, exists_expandsFile t path, fun stream seen stop h => ⟨?_, ?_⟩⟩
  · intro a hread
    obtain ⟨hstop, hobeyed, hdatabases, name, hname⟩ := of_read_eq_ok h hread
    have hcollected := collected_of_obeyAll hobeyed
    refine ⟨hstop, ?_, noBlanks_citedKeys h, ?_, hdatabases, name, hname, ?_, fun s hs => ?_⟩
    · exact hcollected.citations.trans
        (Text.addNew_eq_append_firstsBy (f := Text.asciiLower) (fun _ _ => beq_iff_eq) [] _)
    · exact hcollected.databases.trans
        (Text.addNew_eq_append_firstsBy (f := id) (fun _ _ => beq_iff_eq) [] _)
    · exact (hcollected.origin name hname).resolve_left nofun
    · exact Option.some.inj ((hcollected.style s hs).symm.trans hname)
  · intro file first second
    rw [read_eq_secondStyle_iff h, obeyAll_eq_error_iff]
    constructor
    · rintro ⟨file', first', second', heq, hdisagrees⟩
      cases heq
      exact hdisagrees
    · intro hdisagrees
      exact ⟨file, first, second, rfl, hdisagrees⟩

/-- A document and its chapter, which input each other. -/
def sampleMain : Text :=
  "\\citation\x7ba\x7d\\@input\x7bch.aux\x7d\\bibstyle\x7bs\x7d\\citation\x7bc,A\x7d".toList

def sampleChapter : Text :=
  "\\citation\x7bb\x7d\\bibdata\x7br\x7d\\@input\x7bdoc.aux\x7d".toList

def sampleDocument : FileTree :=
  [(["doc.aux".toList], .file sampleMain), (["ch.aux".toList], .file sampleChapter)]

/-- What the chapter asks for stands where it is input. -/
theorem expandsFile_sampleDocument :
    ExpandsFile sampleDocument "doc.aux".toList
      [("doc.aux".toList, .citations ["a".toList]), ("ch.aux".toList, .citations ["b".toList]),
        ("ch.aux".toList, .databases ["r".toList]), ("doc.aux".toList, .style "s".toList),
        ("doc.aux".toList, .citations ["c".toList, "A".toList])]
      ["ch.aux".toList, "doc.aux".toList] none := by
  have hmain : AuxCommand.all sampleMain = [.citations ["a".toList], .input "ch.aux".toList,
    .style "s".toList, .citations ["c".toList, "A".toList]] := by decide +kernel
  have hchapter : AuxCommand.all sampleChapter = [.citations ["b".toList],
    .databases ["r".toList], .input "doc.aux".toList] := by decide +kernel
  have hchapterText : sampleDocument.read "ch.aux".toList = .ok sampleChapter := rfl
  have hinside : Expands sampleDocument [] ["ch.aux".toList, "doc.aux".toList]
      ((AuxCommand.all sampleChapter).map ("ch.aux".toList, ·))
      [("ch.aux".toList, .citations ["b".toList]), ("ch.aux".toList, .databases ["r".toList])]
      ["ch.aux".toList, "doc.aux".toList] none := by
    rw [hchapter]
    exact .kept nofun (.kept nofun (.again rfl (.nil _)))
  have hbehind : Expands sampleDocument [] ["ch.aux".toList, "doc.aux".toList]
      [("doc.aux".toList, .style "s".toList),
        ("doc.aux".toList, .citations ["c".toList, "A".toList])]
      [("doc.aux".toList, .style "s".toList),
        ("doc.aux".toList, .citations ["c".toList, "A".toList])]
      ["ch.aux".toList, "doc.aux".toList] none := .kept nofun (.kept nofun (.nil _))
  have hinput : Expands sampleDocument [] ["doc.aux".toList]
      [("doc.aux".toList, .input "ch.aux".toList), ("doc.aux".toList, .style "s".toList),
        ("doc.aux".toList, .citations ["c".toList, "A".toList])]
      ([("ch.aux".toList, .citations ["b".toList]), ("ch.aux".toList, .databases ["r".toList])] ++
        [("doc.aux".toList, .style "s".toList),
          ("doc.aux".toList, .citations ["c".toList, "A".toList])])
      ["ch.aux".toList, "doc.aux".toList] none :=
    .opened rfl hchapterText hinside hbehind
  have hread : sampleDocument.read "doc.aux".toList = .ok sampleMain := rfl
  refine .opened hread ?_
  rw [hmain]
  exact .kept nofun hinput

/-- The keys are collected from both files, each once. -/
theorem read_sampleDocument :
    ∃ a, AuxContents.read sampleDocument "doc.aux".toList = .ok a ∧
      a.citations = ["a".toList, "b".toList, "c".toList] ∧ a.databases = ["r".toList] ∧
      a.style = some "s".toList := by
  obtain ⟨hok, -⟩ := (read_collects_expansion sampleDocument "doc.aux".toList).2.2 _ _ _
    expandsFile_sampleDocument
  have hread : (AuxContents.read sampleDocument "doc.aux".toList).toOption.isSome = true := by
    decide +kernel
  cases h : AuxContents.read sampleDocument "doc.aux".toList with
  | error e =>
    rw [h] at hread
    cases hread
  | ok a =>
    obtain ⟨-, hcitations, -, hdatabases, -, name, hname, -, hstyle⟩ := hok a h
    refine ⟨a, rfl, hcitations.trans (by decide), hdatabases.trans (by decide), ?_⟩
    rw [hname, ← hstyle ("doc.aux".toList, "s".toList) (by decide)]

end AuxReading

end Bibliography
