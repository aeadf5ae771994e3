import Bibliography.Database.Provider

set_option autoImplicit false

/-! # What the items of a file amount to

The items of a database file are taken one by one, and each is understood under the abbreviations
that are defined before it (`abbreviationsAfter`). So each item stands for at most one entry
(`BibItem.entry?`) and at most one chunk of the preamble (`BibItem.chunk?`), and a list of items
stands for those of its items in their order (`collect`). Taking items over succeeds if and only if
there is a database with just these entries behind the old ones, that is, if no two of them share a
key (`addItems_eq_ok_iff`). Merging is told by the same kind of equation (`merge_eq_none_iff`), and
neither a line number nor the name of the file has a part in it.
-/

namespace Bibliography

/-! ## Databases by their entries and preamble -/

namespace Database

variable {d d' : Database}

theorem ext_entries (hentries : d.entries = d'.entries) (hpreamble : d.preamble = d'.preamble) :
    d = d' := by
  cases d
  cases d'
  cases hentries
  cases hpreamble
  rfl

def underKeys (es : List Entry) : Table Entry := es.map fun e => (e.key.fold, e)

theorem underKeys_append (es fs : List Entry) :
    underKeys (es ++ fs) = underKeys es ++ underKeys fs := List.map_append

/-- The table of a database is made of its entries. -/
theorem underKeys_entries (d : Database) : underKeys (d.entries.map Prod.snd) = d.entries := by
  rw [underKeys, List.map_map]
  refine (List.map_congr_left fun p hp => ?_).trans (List.map_id _)
  exact Prod.ext (d.keyed p hp).symm rfl

/-- An entry can be added if some database has it behind the entries that are there. -/
theorem exists_add_of_entries {e : Entry} {more : Table Entry}
    (h : d'.entries = d.entries ++ (e.key.fold, e) :: more) : ∃ added, d.add e = .ok added := by
  have hnew : ¬ d.contains e.key = true := by
    rw [contains_iff_mem_names]
    intro hmem
    have hdistinct := d'.distinct
    rw [h, Table.names, List.map_append] at hdistinct
    exact List.nodup_append.1 hdistinct |>.2.2 _ hmem _ List.mem_cons_self rfl
  exact ⟨_, by rw [add, dif_neg hnew]⟩

theorem add_eq_ok_iff {e : Entry} :
    d.add e = .ok d' ↔
      d'.entries = d.entries ++ underKeys [e] ∧ d'.preamble = d.preamble := by
  have hadded : ∀ {added : Database}, d.add e = .ok added →
      added.entries = d.entries ++ underKeys [e] ∧ added.preamble = d.preamble := by
    intro added hadd
    rw [add] at hadd
    split at hadd
    · cases hadd
    · cases hadd
      exact ⟨rfl, rfl⟩
  refine ⟨hadded, fun ⟨hentries, hpreamble⟩ => ?_⟩
  obtain ⟨added, hadd⟩ := exists_add_of_entries hentries
  have hfacts := hadded hadd
  rw [hadd, ext_entries (hfacts.1.trans hentries.symm) (hfacts.2.trans hpreamble.symm)]

theorem addAll_eq_none_iff {es : List Entry} :
    d.addAll es = (d', none) ↔
      d'.entries = d.entries ++ underKeys es ∧ d'.preamble = d.preamble := by
  induction es generalizing d with
  | nil =>
    have hnone : underKeys [] = [] := rfl
    rw [addAll, hnone, List.append_nil, Prod.mk.injEq]
    constructor
    · rintro ⟨rfl, -⟩
      exact ⟨rfl, rfl⟩
    · rintro ⟨hentries, hpreamble⟩
      exact ⟨ext_entries hentries.symm hpreamble.symm, rfl⟩
  | cons e es ih =>
    have hcons : underKeys (e :: es) = underKeys [e] ++ underKeys es := rfl
    rw [addAll, hcons, ← List.append_assoc]
    cases hadd : d.add e with
    | error err =>
      dsimp only
      constructor
      · intro h
        cases h
      · rintro ⟨hentries, -⟩
        rw [List.append_assoc] at hentries
        obtain ⟨added, hadd'⟩ := exists_add_of_entries hentries
        cases hadd.symm.trans hadd'
    | ok added =>
      obtain ⟨hentries, hpreamble⟩ := add_eq_ok_iff.1 hadd
      dsimp only
      rw [ih, hentries, hpreamble]

/-- **Merging succeeds with the entries and the preambles of both in their order.** -/
theorem merge_eq_none_iff {other : Database} :
    d.merge other = (d', none) ↔
      d'.entries = d.entries ++ other.entries ∧ d'.preamble = d.preamble ++ other.preamble := by
  have hiff : ∀ added, d.addAll (other.entries.map Prod.snd) = (added, none) ↔
      added.entries = d.entries ++ other.entries ∧ added.preamble = d.preamble := by
    intro added
    rw [addAll_eq_none_iff, underKeys_entries]
  rw [merge]
  rcases hall : d.addAll (other.entries.map Prod.snd) with ⟨added, _ | err⟩
  · obtain ⟨hentries, hpreamble⟩ := (hiff added).1 hall
    dsimp only
    rw [Prod.mk.injEq, hpreamble]
    constructor
    · rintro ⟨rfl, -⟩
      exact ⟨hentries, rfl⟩
    · rintro ⟨hentries', hpreamble'⟩
      exact ⟨ext_entries (hentries.trans hentries'.symm) hpreamble'.symm, rfl⟩
  · dsimp only
    constructor
    · intro h
      cases h
    · rintro ⟨hentries, -⟩
      have hclash := (hiff ⟨d'.entries, d.preamble, d'.keyed, d'.distinct⟩).2 ⟨hentries, rfl⟩
      cases hall.symm.trans hclash

end Database

/-! ## Items -/

namespace BibText

/-- The abbreviations after definitions; a later one can use those before it. -/
def defineAll (a : Abbreviations) (fields : List BibField) : Abbreviations :=
  fields.foldl (fun a f => a.define f.name (f.value.expand a)) a

theorem define_fst (file : Text) (fields : List BibField) (a : Abbreviations) :
    (define file a fields).1 = defineAll a fields := by
  induction fields generalizing a with
  | nil => rfl
  | cons f fields ih => exact ih _

def entryOf (a : Abbreviations) (kind key : Text) (fields : List BibField) : Entry :=
  fields.foldl (fun e f => (addField f.name (f.value.expand a) e).1) (Entry.empty key kind)

theorem addFields_fst (file : Text) (a : Abbreviations) (fields : List BibField) (e : Entry) :
    (addFields file a fields e).1 =
      fields.foldl (fun e f => (addField f.name (f.value.expand a) e).1) e := by
  induction fields generalizing e with
  | nil => rfl
  | cons f fields ih => exact ih _

end BibText

namespace BibItem

open BibText

def abbreviations (a : Abbreviations) : BibItem → Abbreviations
  | .definitions fields => defineAll a fields
  | _ => a

def entry? (a : Abbreviations) : BibItem → Option Entry
  | .entry kind key fields => some (entryOf a kind key fields)
  | _ => none

def chunk? (a : Abbreviations) : BibItem → Option Text
  | .preamble v => some (v.expand a)
  | _ => none

end BibItem

namespace BibText

def abbreviationsAfter (a : Abbreviations) (is : List BibItem) : Abbreviations :=
  is.foldl BibItem.abbreviations a

/-- What items stand for, each under the abbreviations before it. -/
def collect {α : Type} (what : Abbreviations → BibItem → Option α) :
    Abbreviations → List BibItem → List α
  | _, [] => []
  | a, i :: is => (what a i).toList ++ collect what (i.abbreviations a) is

variable {α : Type} {what : Abbreviations → BibItem → Option α}

theorem collect_append (a : Abbreviations) (is js : List BibItem) :
    collect what a (is ++ js) =
      collect what a is ++ collect what (abbreviationsAfter a is) js := by
  induction is generalizing a with
  | nil => rfl
  | cons i is ih =>
    rw [List.cons_append, collect, ih, collect, List.append_assoc]
    rfl

/-- What is collected comes from one of the items. -/
theorem exists_of_mem_collect {a : Abbreviations} {is : List BibItem} {x : α}
    (h : x ∈ collect what a is) :
    ∃ before i after, is = before ++ i :: after ∧
      what (abbreviationsAfter a before) i = some x := by
  induction is generalizing a with
  | nil => cases h
  | cons i is ih =>
    rw [collect, List.mem_append, Option.mem_toList] at h
    rcases h with h | h
    · exact ⟨[], i, is, rfl, h⟩
    · obtain ⟨before, j, after, rfl, hj⟩ := ih h
      exact ⟨i :: before, j, after, rfl, hj⟩

/-- Without definitions the abbreviations stay. -/
theorem abbreviationsAfter_of_no_definitions {is : List BibItem}
    (h : ∀ fields, BibItem.definitions fields ∉ is) (a : Abbreviations) :
    abbreviationsAfter a is = a := by
  induction is with
  | nil => rfl
  | cons i is ih =>
    have hi : i.abbreviations a = a := by
      cases i with
      | definitions fields => exact absurd List.mem_cons_self (h fields)
      | preamble v => rfl
      | entry kind key fields => rfl
    rw [abbreviationsAfter, List.foldl_cons, hi]
    exact ih fun fields hmem => h fields (List.mem_cons_of_mem _ hmem)

/-! ## Taking items over -/

/-- The contents `k'` are the contents `k` with what items stand for. -/
structure Extends (k k' : Contents) (is : List BibItem) : Prop where
  abbreviations : k'.abbreviations = abbreviationsAfter k.abbreviations is
  entries : k'.database.entries =
    k.database.entries ++ Database.underKeys (collect BibItem.entry? k.abbreviations is)
  preamble : k'.database.preamble =
    k.database.preamble ++ collect BibItem.chunk? k.abbreviations is

variable {k k' k'' : Contents} {i : BibItem} {is : List BibItem}

theorem Contents.ext_database (habbreviations : k.abbreviations = k'.abbreviations)
    (hentries : k.database.entries = k'.database.entries)
    (hpreamble : k.database.preamble = k'.database.preamble) : k = k' := by
  obtain ⟨a, d⟩ := k
  obtain ⟨a', d'⟩ := k'
  cases habbreviations
  cases Database.ext_entries hentries hpreamble
  rfl

theorem extends_nil_iff : Extends k k' [] ↔ k = k' := by
  constructor
  · intro h
    have hentries := h.entries
    have hpreamble := h.preamble
    rw [collect, List.append_nil] at hpreamble
    exact Contents.ext_database h.abbreviations.symm
      (by rw [hentries]; exact (List.append_nil _).symm) hpreamble.symm
  · rintro rfl
    exact ⟨rfl, (List.append_nil _).symm, (List.append_nil _).symm⟩

/-- An item stands for what it stands for alone, and the others for what they stand for behind
it. -/
theorem Extends.cons_iff (h : Extends k k' [i]) : Extends k k'' (i :: is) ↔ Extends k' k'' is := by
  have hsingle : ∀ {α : Type} (what : Abbreviations → BibItem → Option α),
      collect what k.abbreviations (i :: is) =
        collect what k.abbreviations [i] ++ collect what k'.abbreviations is := by
    intro α what
    rw [h.abbreviations]
    exact collect_append k.abbreviations [i] is
  have habbreviations :
      abbreviationsAfter k.abbreviations (i :: is) = abbreviationsAfter k'.abbreviations is := by
    rw [h.abbreviations]
    rfl
  constructor
  · intro hall
    refine ⟨hall.abbreviations.trans habbreviations, ?_, ?_⟩
    · rw [hall.entries, hsingle, Database.underKeys_append, h.entries, List.append_assoc]
    · rw [hall.preamble, hsingle, h.preamble, List.append_assoc]
  · intro hrest
    refine ⟨hrest.abbreviations.trans habbreviations.symm, ?_, ?_⟩
    · rw [hrest.entries, hsingle, Database.underKeys_append, h.entries, List.append_assoc]
    · rw [hrest.preamble, hsingle, h.preamble, List.append_assoc]

theorem addItem_entry_fst (file : Text) (k : Contents) (kind key : Text) (fields : List BibField) :
    (k.addItem file (.entry kind key fields)).1 =
      (k.database.add (entryOf k.abbreviations kind key fields)).map
        fun d => { k with database := d } := by
  rw [entryOf, ← addFields_fst file, Contents.addItem]
  generalize addFields file k.abbreviations fields (Entry.empty key kind) = made
  dsimp only
  cases k.database.add made.1 <;> rfl

/-- **An item is taken over by adding what it stands for.** -/
theorem addItem_eq_ok_iff {file : Text} : (k.addItem file i).1 = .ok k' ↔ Extends k k' [i] := by
  cases i with
  | preamble v =>
    refine ⟨fun h => ?_, fun h => congrArg Except.ok ?_⟩
    · cases h
      exact ⟨rfl, (List.append_nil _).symm, rfl⟩
    · refine Contents.ext_database h.abbreviations.symm ?_ h.preamble.symm
      exact (h.entries.trans (List.append_nil _)).symm
  | definitions fields =>
    have hdefine := define_fst file fields k.abbreviations
    refine ⟨fun h => ?_, fun h => congrArg Except.ok ?_⟩
    · cases h
      exact ⟨hdefine, (List.append_nil _).symm, (List.append_nil _).symm⟩
    · refine Contents.ext_database (hdefine.trans h.abbreviations.symm) ?_ ?_
      · exact (h.entries.trans (List.append_nil _)).symm
      · exact (h.preamble.trans (List.append_nil _)).symm
  | entry kind key fields =>
    rw [addItem_entry_fst]
    constructor
    · intro h
      cases hadd : k.database.add (entryOf k.abbreviations kind key fields) with
      | error err =>
        rw [hadd] at h
        cases h
      | ok d =>
        rw [hadd] at h
        cases h
        obtain ⟨hentries, hpreamble⟩ := Database.add_eq_ok_iff.1 hadd
        exact ⟨rfl, hentries, hpreamble.trans (List.append_nil _).symm⟩
    · intro h
      have hpreamble := h.preamble.trans (List.append_nil _)
      rw [Database.add_eq_ok_iff.2 ⟨h.entries, hpreamble⟩]
      refine congrArg Except.ok (Contents.ext_database h.abbreviations.symm ?_ ?_) <;> rfl

/-- Where all items can be taken over, the first one can. -/
theorem Extends.exists_addItem (h : Extends k k'' (i :: is)) (file : Text) :
    ∃ k', (k.addItem file i).1 = .ok k' := by
  cases i with
  | preamble v => exact ⟨_, rfl⟩
  | definitions fields => exact ⟨_, rfl⟩
  | entry kind key fields =>
    obtain ⟨d, hadd⟩ := Database.exists_add_of_entries h.entries
    exact ⟨_, by rw [addItem_entry_fst, hadd]; rfl⟩

/-- **Items are taken over by adding what they stand for**, which fails only if there is no such
database. -/
theorem addItems_eq_ok_iff {file : Text} :
    (Contents.addItems file is k).1 = .ok k' ↔ Extends k k' is := by
  induction is generalizing k with
  | nil =>
    rw [extends_nil_iff, Contents.addItems]
    dsimp only
    rw [Except.ok.injEq]
  | cons i is ih =>
    rw [Contents.addItems]
    rcases hitem : k.addItem file i with ⟨err | next, here⟩
    · refine ⟨nofun, fun h => ?_⟩
      obtain ⟨next, hnext⟩ := h.exists_addItem file
      rw [hitem] at hnext
      cases hnext
    · have hfirst : Extends k next [i] := addItem_eq_ok_iff.1 (by rw [hitem])
      dsimp only
      rw [ih, hfirst.cons_iff]

end BibText

/-! ## Files -/

open BibText

/-- **What the database of a text is**: that of its items, all of which can be read. The name of
the file has no part in it. -/
theorem Database.ofText_eq_ok_iff {source file : Text} {a : Abbreviations} {d : Database} :
    (Database.ofText source file a).1 = .ok d ↔
      (items source).2 = none ∧
        d.entries = underKeys (collect BibItem.entry? a (items source).1) ∧
        d.preamble = collect BibItem.chunk? a (items source).1 := by
  have hiff := fun k' => @addItems_eq_ok_iff { abbreviations := a } k' (items source).1 file
  rw [Database.ofText]
  generalize items source = found at hiff ⊢
  obtain ⟨is, failure⟩ := found
  dsimp only at hiff ⊢
  rcases hadd : Contents.addItems file is { abbreviations := a } with ⟨err | k, warnings⟩
  · refine ⟨nofun, fun ⟨_, hentries, hpreamble⟩ => ?_⟩
    have hthere := (hiff ⟨abbreviationsAfter a is, d⟩).2 ⟨rfl, hentries, hpreamble⟩
    rw [hadd] at hthere
    cases hthere
  · have hk := (hiff k).1 (by rw [hadd])
    dsimp only
    cases failure with
    | some f => exact ⟨nofun, nofun⟩
    | none =>
      refine ⟨fun h => ?_, fun ⟨_, hentries, hpreamble⟩ => congrArg Except.ok ?_⟩
      · cases h
        exact ⟨rfl, hk.entries, hk.preamble⟩
      · exact Database.ext_entries (hk.entries.trans hentries.symm)
          (hk.preamble.trans hpreamble.symm)

/-- Files are loaded one by one, each merged into what was loaded before. -/
theorem Source.loadFiles_cons_eq_ok_iff {directory : Path} {read : Path → Except FileError Text}
    {a : Abbreviations} {name : Text} {names : List Text} {d d' : Database} :
    (loadFiles directory read a (name :: names) d).1 = .ok d' ↔
      ∃ text other merged, read (bibPath directory name) = .ok text ∧
        (Database.ofText text (bibPath directory name) a).1 = .ok other ∧
        d.merge other = (merged, none) ∧ (loadFiles directory read a names merged).1 = .ok d' := by
  rw [loadFiles]
  dsimp only
  cases hread : read (bibPath directory name) with
  | error cause => simp
  | ok text =>
    rcases htext : Database.ofText text (bibPath directory name) a with ⟨err | other, warnings⟩
    · simp [htext]
    · rcases hmerge : d.merge other with ⟨merged, _ | err⟩
      · simp [htext, hmerge]
      · simp [htext, hmerge]

end Bibliography
