import Bibliography.Proofs.BibText.Continuation

set_option autoImplicit false

/-! # A database in one file or in two

A file whose text is accepted can be cut off from what stands behind it, as long as something stands
between the two that no item goes on with. If it defines no abbreviations, the text behind is then
understood as it would be in a file of its own. So one file with both texts and two files with one
each give the same database, or none (`ofText_joined_iff_load`): two entries with one key are found
by the reader of the one file and by merging the two.
-/

namespace Bibliography

namespace Database

/-- Entries without a common key make a database. -/
theorem exists_of_entries {es : List Entry} (hes : (underKeys es).names.Nodup)
    (chunks : List Text) :
    ∃ d : Database, d.entries = underKeys es ∧ d.preamble = chunks := by
  refine ⟨⟨underKeys es, chunks, fun p hp => ?_, hes⟩, rfl, rfl⟩
  obtain ⟨e, -, rfl⟩ := List.mem_map.1 hp
  rfl

/-- The last entries of a database make one as well. -/
theorem exists_of_append_entries {d : Database} {entries : Table Entry} {es : List Entry}
    (h : d.entries = entries ++ underKeys es) (chunks : List Text) :
    ∃ d : Database, d.entries = underKeys es ∧ d.preamble = chunks := by
  refine exists_of_entries ?_ chunks
  have hdistinct := d.distinct
  rw [h, Table.names, List.map_append] at hdistinct
  exact (List.nodup_append.1 hdistinct).2.1

theorem empty_merge (d : Database) : empty.merge d = (d, none) :=
  merge_eq_none_iff.2 ⟨rfl, rfl⟩

end Database

namespace BibText

/-- The same text is read alike wherever it stands. -/
theorem takeItems_of_rest {c c' : Cursor} {is : List BibItem} (hc : c'.rest = c.rest)
    (h : takeItems c = (is, none)) :
    ∃ is', is'.map BibItem.withoutLines = is.map BibItem.withoutLines ∧
      takeItems c' = (is', none) := by
  have hprolongs : Prolongs [] c c' := by rw [Prolongs, hc, List.append_nil]
  obtain ⟨is', e, hsame, he, hitems⟩ := takeItems_of_prolongs standsApart_nil hprolongs h
  have hend : (e.takeWhile (· ≠ '@')).2.head? ≠ some '@' := by
    rw [Cursor.takeWhile, he]
    intro hat
    cases hat
  have hnone : takeItems e = ([], none) := by rw [takeItems, dif_neg hend]
  exact ⟨is', hsame, by rw [hitems, hnone, List.append_nil]⟩

theorem standsApart_cons {c : Char} (hc : c.isAlpha = false ∧ isAsciiSpace c = false ∧
    closingOf? c = none) (s : Text) : StandsApart (c :: s) := by
  intro ch hch
  cases hch
  exact hc

/-- **The items of a text, and behind them those of another.** -/
theorem items_joined {a : Text} {is : List BibItem} (ha : items a = (is, none)) (b : Text) :
    ∃ is' c, is'.map BibItem.withoutLines = is.map BibItem.withoutLines ∧ c.rest = b ∧
      items (a ++ ';' :: b) = (is' ++ (takeItems c).1, (takeItems c).2) := by
  have hprolongs : Prolongs (';' :: b) (Cursor.start a) (Cursor.start (a ++ ';' :: b)) := rfl
  obtain ⟨is', e, hsame, he, hitems⟩ :=
    takeItems_of_prolongs (standsApart_cons (by decide) b) hprolongs ha
  have hskip := takeItems_of_no_at (c := e) (w := [';']) (t := b) (by decide) he
  exact ⟨is', e.past [';'] b, hsame, rfl, by rw [← hskip]; exact hitems⟩

theorem definitions_not_mem_of_withoutLines {is js : List BibItem}
    (h : is.map BibItem.withoutLines = js.map BibItem.withoutLines)
    (hjs : ∀ fields, BibItem.definitions fields ∉ js) :
    ∀ fields, BibItem.definitions fields ∉ is := by
  intro fields hmem
  have hmap : BibItem.withoutLines (.definitions fields) ∈ js.map BibItem.withoutLines :=
    h ▸ List.mem_map_of_mem hmem
  obtain ⟨j, hj, heq⟩ := List.mem_map.1 hmap
  cases j with
  | definitions others => exact hjs others hj
  | preamble v => cases heq
  | entry kind key others => cases heq

/-- What a joined text says: what the first text says, and what the second one says. -/
theorem collect_joined {α : Type} {what : Abbreviations → BibItem → Option α}
    (hwhat : ∀ a i, what a i.withoutLines = what a i) {is is' js js' : List BibItem}
    (his : is'.map BibItem.withoutLines = is.map BibItem.withoutLines)
    (hjs : js'.map BibItem.withoutLines = js.map BibItem.withoutLines)
    (hdefinitions : ∀ fields, BibItem.definitions fields ∉ is) (a : Abbreviations) :
    collect what a (is' ++ js') = collect what a is ++ collect what a js := by
  have hstay := abbreviationsAfter_of_no_definitions
    (definitions_not_mem_of_withoutLines his hdefinitions) a
  rw [collect_append, hstay, collect_congr hwhat his, collect_congr hwhat hjs]

/-- Two texts in one file give the database into which that of the second is merged. -/
theorem ofText_joined_iff_merge {a b file : Text} {abbreviations : Abbreviations} {da : Database}
    (ha : (Database.ofText a file abbreviations).1 = .ok da)
    (hdefinitions : ∀ fields, BibItem.definitions fields ∉ (items a).1) {d : Database} :
    (Database.ofText (a ++ ';' :: b) file abbreviations).1 = .ok d ↔
      ∃ db, (Database.ofText b file abbreviations).1 = .ok db ∧ da.merge db = (d, none) := by
  obtain ⟨hnone, hentries, hpreamble⟩ := Database.ofText_eq_ok_iff.1 ha
  obtain ⟨is', c, his, hc, hitems⟩ := items_joined (Prod.ext rfl hnone) b
  -- what the joined file says, once its second part is known to be read
  have hjoined : ∀ {js js' : List BibItem}, takeItems c = (js', none) →
      js'.map BibItem.withoutLines = js.map BibItem.withoutLines →
      ((Database.ofText (a ++ ';' :: b) file abbreviations).1 = .ok d ↔
        d.entries =
          da.entries ++ Database.underKeys (collect BibItem.entry? abbreviations js) ∧
        d.preamble = da.preamble ++ collect BibItem.chunk? abbreviations js) := by
    intro js js' hjs' hjs
    rw [Database.ofText_eq_ok_iff, hitems, hjs', hentries, hpreamble,
      collect_joined entry?_withoutLines his hjs hdefinitions,
      collect_joined chunk?_withoutLines his hjs hdefinitions, Database.underKeys_append]
    exact and_iff_right rfl
  constructor
  · intro h
    have hread : takeItems c = ((takeItems c).1, none) := by
      have hnone' := (Database.ofText_eq_ok_iff.1 h).1
      rw [hitems] at hnone'
      exact Prod.ext rfl hnone'
    have hrest : (Cursor.start b).rest = c.rest := hc.symm
    obtain ⟨js, hjs, hb⟩ := takeItems_of_rest hrest hread
    obtain ⟨hentries', hpreamble'⟩ := (hjoined hread hjs.symm).1 h
    obtain ⟨db, hdb, hdb'⟩ := Database.exists_of_append_entries hentries'
      (collect BibItem.chunk? abbreviations js)
    refine ⟨db, Database.ofText_eq_ok_iff.2 ?_, Database.merge_eq_none_iff.2 ?_⟩
    · rw [items, hb]
      exact ⟨rfl, hdb, hdb'⟩
    · rw [hdb, hdb']
      exact ⟨hentries', hpreamble'⟩
  · rintro ⟨db, hb, hmerge⟩
    obtain ⟨hnone', hdb, hdb'⟩ := Database.ofText_eq_ok_iff.1 hb
    have hread : takeItems (.start b) = ((items b).1, none) := Prod.ext rfl hnone'
    obtain ⟨js', hjs, hread⟩ := takeItems_of_rest hc hread
    rw [hjoined hread hjs, ← hdb, ← hdb']
    exact Database.merge_eq_none_iff.1 hmerge

/-- Whether a text is accepted, and what its database is, does not depend on the name of its
file. -/
theorem ofText_fst_congr (source file other : Text) (abbreviations : Abbreviations) {d : Database} :
    (Database.ofText source file abbreviations).1 = .ok d ↔
      (Database.ofText source other abbreviations).1 = .ok d := by
  rw [Database.ofText_eq_ok_iff, Database.ofText_eq_ok_iff]

/-- Loading two files merges the database of the second into that of the first. -/
theorem load_two_eq_ok_iff {directory : Path} {read : Path → Except FileError Text}
    {first second a b : Text} (hfirst : read (Source.bibPath directory first) = .ok a)
    (hsecond : read (Source.bibPath directory second) = .ok b) {file : Text}
    {abbreviations : Abbreviations} {da d : Database}
    (ha : (Database.ofText a file abbreviations).1 = .ok da) :
    ((Source.files directory read).load [first, second] abbreviations).1 = .ok d ↔
      ∃ db, (Database.ofText b file abbreviations).1 = .ok db ∧ da.merge db = (d, none) := by
  have hload : ((Source.files directory read).load [first, second] abbreviations).1 =
      (Source.loadFiles directory read abbreviations [first, second] .empty).1 := rfl
  rw [hload, Source.loadFiles_cons_eq_ok_iff]
  constructor
  · rintro ⟨text, other, merged, htext, hother, hmerged, hrest⟩
    cases hfirst.symm.trans htext
    cases ((ofText_fst_congr a _ file abbreviations).1 hother).symm.trans ha
    cases (Database.empty_merge da).symm.trans hmerged
    obtain ⟨text, db, merged, htext, hdb, hmerged, hrest⟩ :=
      Source.loadFiles_cons_eq_ok_iff.1 hrest
    cases hsecond.symm.trans htext
    cases hrest
    exact ⟨db, (ofText_fst_congr b _ file abbreviations).1 hdb, hmerged⟩
  · rintro ⟨db, hdb, hmerge⟩
    refine ⟨a, da, da, hfirst, (ofText_fst_congr a _ file abbreviations).2 ha,
      Database.empty_merge da, Source.loadFiles_cons_eq_ok_iff.2 ?_⟩
    exact ⟨b, db, d, hsecond, (ofText_fst_congr b _ file abbreviations).2 hdb, hmerge, rfl⟩

/-- **A database may be divided over files.** If a text is accepted and defines no abbreviations,
then one file with this text, a semicolon and another text gives a database if and only if merging
the databases of the two texts does, which is what loading them from two files does; and it is the
same database. -/
theorem ofText_joined_iff_load {a b : Text} {abbreviations : Abbreviations} {file : Text}
    {da : Database} (ha : (Database.ofText a file abbreviations).1 = .ok da)
    (hdefinitions : ∀ fields, BibItem.definitions fields ∉ (items a).1)
    {directory : Path} {read : Path → Except FileError Text} {first second : Text}
    (hfirst : read (Source.bibPath directory first) = .ok a)
    (hsecond : read (Source.bibPath directory second) = .ok b) (d : Database) :
    ((Database.ofText (a ++ ";".toList ++ b) file abbreviations).1 = .ok d ↔
      ∃ db, (Database.ofText b file abbreviations).1 = .ok db ∧ da.merge db = (d, none)) ∧
    ((Database.ofText (a ++ ";".toList ++ b) file abbreviations).1 = .ok d ↔
      ((Source.files directory read).load [first, second] abbreviations).1 = .ok d) := by
  have hjoined : a ++ ";".toList ++ b = a ++ ';' :: b := List.append_assoc a [';'] b
  have hmerge := ofText_joined_iff_merge (b := b) ha hdefinitions (d := d)
  rw [hjoined]
  exact ⟨hmerge, hmerge.trans (load_two_eq_ok_iff hfirst hsecond ha).symm⟩

/-- A text that ends with a comment without a group. -/
def firstSample : Text := "@misc\x7bk, t = jan\x7d @preamble\x7b\"p\"\x7d @comment".toList

/-- A text that would be such a group, and then an entry with a definition before it. -/
def secondSample : Text := "\x7bz\x7d @string(s = \"x\") @misc(L, t = s # \x7b y\x7d)".toList

def firstEntry : Entry := ⟨"k".toList, "misc".toList, [("t".toList, "January".toList)], []⟩

def secondEntry : Entry := ⟨"L".toList, "misc".toList, [("t".toList, "x y".toList)], []⟩

def firstDatabase : Database where
  entries := [("k".toList, firstEntry)]
  preamble := ["p".toList]
  keyed := by decide +kernel
  distinct := by decide +kernel

def secondDatabase : Database where
  entries := [("l".toList, secondEntry)]
  keyed := by decide +kernel
  distinct := by decide +kernel

def joinedDatabase : Database where
  entries := [("k".toList, firstEntry), ("l".toList, secondEntry)]
  preamble := ["p".toList]
  keyed := by decide +kernel
  distinct := by decide +kernel

def readSample (path : Path) : Except FileError Text :=
  .ok (if path = "a.bib".toList then firstSample else secondSample)

theorem ofText_joined_samples :
    (Database.ofText firstSample ['f'] .months).1 = .ok firstDatabase ∧
      (∀ fields, BibItem.definitions fields ∉ (items firstSample).1) ∧
      readSample (Source.bibPath [] "a".toList) = .ok firstSample ∧
      readSample (Source.bibPath [] "b".toList) = .ok secondSample ∧
      (Database.ofText (firstSample ++ ";".toList ++ secondSample) ['f'] .months).1 =
        .ok joinedDatabase ∧
      ((Source.files [] readSample).load ["a".toList, "b".toList] .months).1 =
        .ok joinedDatabase := by
  have hread : (Database.ofText firstSample ['f'] .months).1 = .ok firstDatabase :=
    Database.ofText_eq_ok_iff.2 (by decide +kernel)
  have hitems : (items firstSample).1 =
      [.entry "misc".toList "k".toList [⟨['t'], [.name "jan".toList 1]⟩],
        .preamble [.text ['p']]] := by decide +kernel
  have hdefinitions : ∀ fields, BibItem.definitions fields ∉ (items firstSample).1 := by
    simp [hitems]
  have hfirst : readSample (Source.bibPath [] "a".toList) = .ok firstSample :=
    congrArg Except.ok (if_pos (by decide +kernel))
  have hsecond : readSample (Source.bibPath [] "b".toList) = .ok secondSample :=
    congrArg Except.ok (if_neg (by decide +kernel))
  have hother : (Database.ofText secondSample ['f'] .months).1 = .ok secondDatabase :=
    Database.ofText_eq_ok_iff.2 (by decide +kernel)
  have hmerge : firstDatabase.merge secondDatabase = (joinedDatabase, none) :=
    Database.merge_eq_none_iff.2 ⟨rfl, rfl⟩
  obtain ⟨hiffMerge, hiffLoad⟩ :=
    ofText_joined_iff_load hread hdefinitions hfirst hsecond joinedDatabase
  have hjoined := hiffMerge.2 ⟨secondDatabase, hother, hmerge⟩
  exact ⟨hread, hdefinitions, hfirst, hsecond, hjoined, hiffLoad.1 hjoined⟩

end BibText

end Bibliography
