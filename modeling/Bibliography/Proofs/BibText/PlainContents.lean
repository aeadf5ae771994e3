import Bibliography.BibText.Contents
import Bibliography.Proofs.BibText.PlainSyntax

set_option autoImplicit false

/-! # The database of a file in plain syntax

The entries of a file in plain syntax are taken over as they were written: their fields stand in the
table of the entry in their order, and the names in an author or editor field become its persons,
except for those that cannot be read, which raise a warning. So the file is read back whatever
abbreviations there are (`ofText_of_writes`).
-/

namespace Bibliography

/-! ## Setting names in a table -/

namespace Table

variable {α : Type}

/-- A new name joins at the end. -/
theorem set_of_not_mem {t : Table α} {name : Text} (h : name ∉ t.names) (value : α) :
    t.set name value = t ++ [(name, value)] := by
  induction t with
  | nil => rfl
  | cons p t ih =>
    obtain ⟨n, v⟩ := p
    obtain ⟨hn, ht⟩ := not_or.1 (fun hmem => h (List.mem_cons.2 hmem))
    rw [set, if_neg hn, ih ht]
    rfl

/-- Of two values for one name the second stays. -/
theorem set_set (t : Table α) (name : Text) (first second : α) :
    (t.set name first).set name second = t.set name second := by
  induction t with
  | nil => simp [set]
  | cons p t ih =>
    obtain ⟨n, v⟩ := p
    by_cases hn : name = n
    · simp [set, hn]
    · simp [set, hn, ih]

end Table

/-! ## Persons -/

/-- A person is added behind the others with the role, in any spelling of it. -/
theorem Entry.personsOf_addPerson (e : Entry) (role : Text) (person : Person) (other : Text) :
    (e.addPerson role person).personsOf other =
      e.personsOf other ++ if other.fold = role.fold then [person] else [] := by
  rw [personsOf, addPerson, Table.get?_set]
  split
  · next hsame => rw [Option.getD_some, personsOf, personsOf, hsame]
  · rw [List.append_nil, personsOf]

namespace BibText

/-- The persons of a list of names, as far as these can be read. -/
def readPersons (names : List Text) : List Person := names.filterMap Person.ofText?

/-- The warnings for the names of a list that cannot be read, in an entry with the given key. -/
def nameWarnings (key : Text) (names : List Text) : List BibWarning :=
  (names.filter fun n => (Person.ofText? n).isNone).map fun n =>
    .unreadableName key (.invalidName n.trim)

def withPersons (role : Text) (persons : List Person) (e : Entry) : Entry :=
  if persons = [] then e
  else { e with persons := e.persons.set role.fold (e.personsOf role ++ persons) }

theorem key_withPersons (role : Text) (persons : List Person) (e : Entry) :
    (withPersons role persons e).key = e.key := by
  unfold withPersons
  split <;> rfl

theorem fields_withPersons (role : Text) (persons : List Person) (e : Entry) :
    (withPersons role persons e).fields = e.fields := by
  unfold withPersons
  split <;> rfl

theorem withPersons_addPerson (role : Text) (person : Person) (persons : List Person) (e : Entry) :
    withPersons role persons (e.addPerson role person) =
      withPersons role (person :: persons) e := by
  by_cases hnone : persons = []
  · rw [withPersons, if_pos hnone, hnone]
    rfl
  · rw [withPersons, if_neg hnone, Entry.personsOf_addPerson, if_pos rfl, withPersons,
      if_neg (List.cons_ne_nil _ _)]
    simp only [Entry.addPerson, Table.set_set, List.append_assoc, List.cons_append, List.nil_append]

theorem addPersons_eq (role : Text) (names : List Text) (e : Entry) :
    addPersons role names e =
      (withPersons role (readPersons names) e, nameWarnings e.key names) := by
  induction names generalizing e with
  | nil => rfl
  | cons name names ih =>
    rw [addPersons, Person.read]
    cases hperson : Person.ofText? name with
    | some person =>
      dsimp only
      rw [ih, withPersons_addPerson]
      simp [readPersons, nameWarnings, hperson, Entry.addPerson]
    | none =>
      dsimp only
      rw [ih]
      simp [readPersons, nameWarnings, hperson, key_withPersons]

/-! ## Plain entries -/

/-- The persons that the value of a field names, if it is a field of persons. -/
def PlainField.persons (f : PlainField) : List Person :=
  if personFields.contains f.name then readPersons (Tex.splitNameList f.value) else []

def PlainField.warnings (key : Text) (f : PlainField) : List BibWarning :=
  if personFields.contains f.name then nameWarnings key (Tex.splitNameList f.value) else []

/-- The persons of fields, each role that has any under the name of its field. -/
def personsTable (fs : List PlainField) : Table (List Person) :=
  (fs.map fun f => (f.name, f.persons)).filter fun role => role.2 ≠ []

/-- An entry as it is taken over: with its fields as they were written and their persons. -/
def PlainEntry.entry (p : PlainEntry) : Entry where
  key := p.key
  kind := p.kind
  fields := p.fields.map fun f => (f.name, f.value)
  persons := personsTable p.fields

def PlainEntry.warnings (p : PlainEntry) : List BibWarning :=
  p.fields.flatMap (·.warnings p.key)

/-- The value of a plain field does not depend on abbreviations. -/
theorem expand_field (a : Abbreviations) (f : PlainField) : f.field.value.expand a = f.value := by
  show Text.collapse (f.value ++ []) = f.value
  rw [List.append_nil, f.collapsed]

theorem addField_eq (f : PlainField) (e : Entry) :
    addField f.name f.value e =
      ((withPersons f.name f.persons e).setField f.name f.value, f.warnings e.key) := by
  rw [addField, PlainField.persons, PlainField.warnings]
  by_cases hrole : personFields.contains f.name = true
  · simp only [if_pos hrole, addPersons_eq]
  · simp only [if_neg hrole]
    rfl

/-- A new field joins at the end, and its persons with it. -/
theorem setField_withPersons {f : PlainField} {e : Entry} (hfields : f.name ∉ e.fields.names)
    (hpersons : f.name ∉ e.persons.names) :
    (withPersons f.name f.persons e).setField f.name f.value =
      { e with
        fields := e.fields ++ [(f.name, f.value)]
        persons := e.persons ++ personsTable [f] } := by
  have hnone : e.persons.get? f.name = none := by
    have hnot := mt (Table.contains_iff_mem_names e.persons f.name).1 hpersons
    simpa [Table.contains] using hnot
  rw [Entry.setField, fields_withPersons, fold_name, Table.set_of_not_mem hfields, withPersons]
  split
  · next hempty => simp [personsTable, hempty]
  · next hsome =>
    rw [Entry.personsOf, fold_name, hnone, Table.set_of_not_mem hpersons]
    simp [personsTable, hsome]

/-- The names in a table of persons are names of their fields. -/
theorem names_personsTable_subset (fs : List PlainField) :
    (personsTable fs).names ⊆ fs.map (·.name) := by
  intro name hname
  obtain ⟨role, hrole, rfl⟩ := List.mem_map.1 hname
  obtain ⟨f, hf, rfl⟩ := List.mem_map.1 (List.mem_filter.1 hrole).1
  exact List.mem_map_of_mem hf

/-- Fields with new names join in their order, and their persons with them. -/
theorem addFields_of_plain (file : Text) (a : Abbreviations) (fs : List PlainField) (e : Entry)
    (hfields : (e.fields.names ++ fs.map (·.name)).Nodup)
    (hpersons : e.persons.names ⊆ e.fields.names) :
    addFields file a (fs.map PlainField.field) e =
      ({ e with
          fields := e.fields ++ fs.map fun f => (f.name, f.value)
          persons := e.persons ++ personsTable fs }, fs.flatMap (·.warnings e.key)) := by
  induction fs generalizing e with
  | nil => simp [addFields, personsTable]
  | cons f fs ih =>
    have hnew : f.name ∉ e.fields.names := fun hmem =>
      List.nodup_append.1 hfields |>.2.2 _ hmem _ List.mem_cons_self rfl
    have hadd : addField f.field.name (f.field.value.expand a) e =
        ({ e with
            fields := e.fields ++ [(f.name, f.value)]
            persons := e.persons ++ personsTable [f] }, f.warnings e.key) := by
      rw [expand_field]
      show addField f.name f.value e = _
      rw [addField_eq, setField_withPersons hnew fun hmem => hnew (hpersons hmem)]
    have hfields' : (Table.names (e.fields ++ [(f.name, f.value)]) ++ fs.map (·.name)).Nodup := by
      simpa [Table.names] using hfields
    have hpersons' : Table.names (e.persons ++ personsTable [f]) ⊆
        Table.names (e.fields ++ [(f.name, f.value)]) := by
      intro name hname
      simp only [Table.names, List.map_append, List.mem_append] at hname ⊢
      exact hname.imp (fun hold => hpersons hold) fun hmem => names_personsTable_subset [f] hmem
    rw [List.map_cons, addFields, hadd]
    dsimp only
    rw [ih _ hfields' hpersons']
    have hsplit : personsTable (f :: fs) = personsTable [f] ++ personsTable fs := by
      rw [personsTable, List.map_cons, ← List.singleton_append, List.filter_append]
      rfl
    have hvalue : f.field.value.warnings file a = [] := rfl
    rw [hvalue, hsplit]
    simp

/-- An entry is taken over whatever the abbreviations are. -/
theorem addFields_entry (file : Text) (a : Abbreviations) (p : PlainEntry) :
    addFields file a (p.fields.map PlainField.field) (Entry.empty p.key p.kind) =
      (p.entry, p.warnings) := by
  have hempty : Entry.empty p.key p.kind = ⟨p.key, p.kind, [], []⟩ := by
    rw [Entry.empty, fold_kind]
  have hadd := addFields_of_plain file a p.fields ⟨p.key, p.kind, [], []⟩ p.names_distinct
    (List.nil_subset _)
  rw [hempty, hadd]
  rfl

/-! ## Databases -/

theorem addItems_of_plain (file : Text) (ps : List PlainEntry) (k : Contents)
    (hkeys : (k.database.entries.names ++ ps.map (·.key.fold)).Nodup) :
    ∃ d, Contents.addItems file (ps.map PlainEntry.item) k =
        (.ok { k with database := d }, ps.flatMap PlainEntry.warnings) ∧
      d.preamble = k.database.preamble ∧
      d.entries = k.database.entries ++ ps.map fun p => (p.key.fold, p.entry) := by
  induction ps generalizing k with
  | nil => exact ⟨k.database, rfl, rfl, (List.append_nil _).symm⟩
  | cons p ps ih =>
    have hnew : k.database.contains p.entry.key = false := by
      rw [← Bool.not_eq_true, Database.contains_iff_mem_names]
      exact fun hmem => List.nodup_append.1 hkeys |>.2.2 _ hmem _ List.mem_cons_self rfl
    have hadd : k.database.add p.entry = .ok (k.database.withEntry p.entry hnew) := by
      rw [Database.add, dif_neg (by simp [hnew])]
    have hitem : k.addItem file p.item =
        (.ok { k with database := k.database.withEntry p.entry hnew }, p.warnings) := by
      rw [PlainEntry.item, Contents.addItem, addFields_entry]
      dsimp only
      rw [hadd]
    have hkeys' : (Table.names (k.database.entries ++ [(p.key.fold, p.entry)]) ++
        ps.map (·.key.fold)).Nodup := by
      simpa [Table.names] using hkeys
    obtain ⟨d, hothers, hpreamble, hentries⟩ :=
      ih { k with database := k.database.withEntry p.entry hnew } hkeys'
    refine ⟨d, ?_, hpreamble, ?_⟩
    · rw [List.map_cons, Contents.addItems, hitem]
      dsimp only
      rw [hothers]
      rfl
    · rw [hentries]
      show (k.database.entries ++ [(p.key.fold, p.entry)]) ++ _ = _
      rw [List.append_assoc]
      rfl

/-- **A file in plain syntax is read back.** Whatever abbreviations there are, its database has no
preamble and the entries that were written, in their order, each with its fields and the persons
that these name; the only warnings are for names that cannot be read. -/
theorem ofText_of_writes {ps : List PlainEntry} {source : Text}
    (hkeys : (ps.map (·.key.fold)).Nodup) (hsource : Writes ps source) (file : Text)
    (a : Abbreviations) :
    ∃ d, Database.ofText source file a = (.ok d, ps.flatMap PlainEntry.warnings) ∧
      d.preamble = [] ∧ d.entries = ps.map fun p => (p.key.fold, p.entry) := by
  obtain ⟨d, hadd, hpreamble, hentries⟩ :=
    addItems_of_plain file ps { abbreviations := a } hkeys
  refine ⟨d, ?_, hpreamble, hentries⟩
  rw [Database.ofText, items_of_writes hsource]
  dsimp only
  rw [hadd]

/-- An entry in braces, with a quote inside braces in its second value. -/
def bookSample : PlainEntry where
  close := '}'
  kind := "book".toList
  key := "k1".toList
  fields :=
    [⟨"author".toList, "Ünal, A".toList, by decide, by decide, by decide, by decide +kernel⟩,
      ⟨"t".toList, "\x7b\"\x7d x".toList, by decide, by decide, by decide, by decide +kernel⟩]
  close_eq := Or.inl rfl
  kind_ne_nil := by decide
  kind_chars := by decide
  kind_entry := by decide
  key_ne_nil := by decide
  key_chars := by decide
  names_distinct := by decide

/-- An entry in parentheses, without fields. -/
def miscSample : PlainEntry where
  close := ')'
  kind := "misc".toList
  key := "K2".toList
  fields := []
  close_eq := Or.inr rfl
  kind_ne_nil := by decide
  kind_chars := by decide
  kind_entry := by decide
  key_ne_nil := by decide
  key_chars := by decide
  names_distinct := by decide

/-- The two entries in a file. -/
def plainSample : Text :=
  "a @book\x7bk1,author = \x7bÜnal, A\x7d ,t=\"\x7b\"\x7d x\",\n\x7d,@ misc(K2)\n".toList

theorem writes_plainSample : Writes [bookSample, miscSample] plainSample := by
  have hnone : IsBlanks [] := fun _ hx => absurd hx List.not_mem_nil
  have hblank : IsBlanks [' '] := fun x hx => by rw [List.mem_singleton.1 hx]; decide
  have hline : IsBlanks ['\n'] := fun x hx => by rw [List.mem_singleton.1 hx]; decide
  have hquotes : QuotesInBraces ['{', '"', '}', ' ', 'x'] := by
    intro before after hsplit
    rcases before with _ | ⟨x, _ | ⟨y, before⟩⟩
    · cases hsplit
    · cases hsplit
      decide
    · have htail : ['}', ' ', 'x'] = before ++ '"' :: after := by
        simpa using (List.cons.inj (List.cons.inj hsplit).2).2
      have hmem : '"' ∈ ['}', ' ', 'x'] := htail ▸ List.mem_append_right _ List.mem_cons_self
      exact absurd hmem (by decide)
  have hfields : WritesFields bookSample.fields _ :=
    .cons hnone hblank hblank .braced hblank
      (.cons hnone hnone hnone (.quoted hquotes) hnone (.comma hline))
  have hbook : WritesEntry bookSample _ := .intro hnone hnone hnone hnone hfields
  have hmisc : WritesEntry miscSample _ := .intro hblank hnone hnone hnone .nil
  have hbefore : '@' ∉ ['a', ' '] := by decide
  have hbetween : '@' ∉ [','] := by decide
  have hbehind : '@' ∉ ['\n'] := by decide
  exact .cons hbefore hbook (.cons hbetween hmisc (.nil hbehind))

theorem ofText_of_writes_plainSample :
    ([bookSample, miscSample].map (·.key.fold)).Nodup ∧
      Writes [bookSample, miscSample] plainSample ∧
      ∃ d, Database.ofText plainSample ['f'] [] = (.ok d, []) ∧ d.preamble = [] ∧
        d.entries = [("k1".toList, bookSample.entry), ("k2".toList, miscSample.entry)] := by
  have hkeys : ([bookSample, miscSample].map (·.key.fold)).Nodup := by decide +kernel
  have hwarnings : [bookSample, miscSample].flatMap PlainEntry.warnings = [] := by decide +kernel
  obtain ⟨d, hd, hpreamble, hentries⟩ := ofText_of_writes hkeys writes_plainSample ['f'] []
  rw [hwarnings] at hd
  exact ⟨hkeys, writes_plainSample, d, hd, hpreamble, hentries⟩

end BibText

end Bibliography
