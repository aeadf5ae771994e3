import Bibliography.Proofs.BibText.Assembly
import Bibliography.Proofs.BibText.FieldPersons

set_option autoImplicit false

/-! # Databases and entries as stores

A database is changed by adding an entry, by merging another database and by adding a chunk to the
preamble; the first two can fail. What a row of changes leaves is told by plain lists, without
tables and folded keys (`Ledger`): each change adds the entries in front of the first one whose key
is there in some spelling, and its chunks of the preamble. Keys lead to these entries in any
spelling; an entry is turned down only when its key is there, and then nothing is changed; and
merging is a row of the other changes that ends at the first entry to be turned down
(`Database.Keeps`).

An entry is changed by setting fields and adding persons. It has one field for each name that was
set, in the order of the first settings and with the value that was set last, and under each role
the persons that were added there (`Entry.Keeps`).

Main statement: `stores_keep_changes`.
-/

namespace Bibliography

/-- Whether one of the entries has the key of another one, in any spelling. -/
def Entry.clashes (e : Entry) (es : List Entry) : Bool := es.any (·.key.fold = e.key.fold)

namespace Database

/-! ## Changes of a database -/

/-- What can be done to a database. -/
inductive Change where
  | add (e : Entry)
  | merge (other : Database)
  | addToPreamble (chunk : Text)

def Change.apply (d : Database) : Change → Database × Option DatabaseError
  | .add e =>
    match d.add e with
    | .ok d => (d, none)
    | .error err => (d, some err)
  | .merge other => d.merge other
  | .addToPreamble chunk => (d.addToPreamble chunk, none)

/-- A database after changes, of which some can fail. -/
def applyAll (d : Database) (changes : List Change) : Database :=
  changes.foldl (fun d change => (change.apply d).1) d

/-- The entries and the chunks of the preamble that were accepted, in their order. -/
structure Ledger where
  entries : List Entry := []
  preamble : List Text := []

namespace Change

/-- The entries that a change adds to others: those in front of the first one that clashes. -/
def accepted (es : List Entry) : Change → List Entry
  | .add e => if e.clashes es then [] else [e]
  | .merge other => (other.entries.map Prod.snd).takeWhile (!·.clashes es)
  | .addToPreamble _ => []

/-- The chunks that a change adds to a preamble. Those of a database that is merged are left out if
one of its entries clashes. -/
def chunks (es : List Entry) : Change → List Text
  | .add _ => []
  | .merge other => if (other.entries.map Prod.snd).any (·.clashes es) then [] else other.preamble
  | .addToPreamble chunk => [chunk]

/-- What was accepted, after one more change. -/
def record (l : Ledger) (change : Change) : Ledger :=
  ⟨l.entries ++ change.accepted l.entries, l.preamble ++ change.chunks l.entries⟩

end Change

/-- What is accepted of changes of an empty database. -/
def ledgerOf (changes : List Change) : Ledger := changes.foldl Change.record {}

/-- A database keeps what was accepted of changes: in their order, under keys of which no two agree,
and found under each spelling of them. -/
structure Keeps (d : Database) (changes : List Change) : Prop where
  entries : d.entries.map Prod.snd = (ledgerOf changes).entries
  preamble : d.preamble = (ledgerOf changes).preamble
  distinct : ((ledgerOf changes).entries.map (·.key.fold)).Nodup
  entry : ∀ key e, d.entry? key = some e ↔
    e ∈ (ledgerOf changes).entries ∧ e.key.fold = key.fold
  contains : ∀ key, d.contains key = true ↔
    ∃ e ∈ (ledgerOf changes).entries, e.key.fold = key.fold
  /-- An entry is turned down if and only if its key is there, and then nothing is changed. -/
  add : ∀ e, (Change.add e).apply d =
    if d.contains e.key then (d, some (.duplicateKey e.key))
    else (empty.applyAll (changes ++ [.add e]), none)
  /-- Without a clash, merging is adding the entries and then the chunks one by one. -/
  merge_new : ∀ other : Database, (∀ e ∈ other.entries.map Prod.snd, d.contains e.key = false) →
    d.merge other = (empty.applyAll (changes ++ ((other.entries.map Prod.snd).map .add ++
      other.preamble.map .addToPreamble)), none)
  /-- Merging ends at the first clash, with the entries before it added one by one. -/
  merge_clash : ∀ (other : Database) (before : List Entry) (e : Entry) (after : List Entry),
    other.entries.map Prod.snd = before ++ e :: after →
    (∀ b ∈ before, d.contains b.key = false) → d.contains e.key = true →
    d.merge other = (empty.applyAll (changes ++ before.map .add), some (.duplicateKey e.key))

end Database

namespace Entry

/-! ## Changes of an entry -/

/-- What can be done to an entry. -/
inductive Change where
  | setField (name value : Text)
  | addPerson (role : Text) (person : Person)

def Change.apply (e : Entry) : Change → Entry
  | .setField name value => e.setField name value
  | .addPerson role person => e.addPerson role person

def Change.names (changes : List Change) : List Text :=
  changes.filterMap fun
    | .setField name _ => some name.fold
    | .addPerson _ _ => none

def Change.values (name : Text) (changes : List Change) : List Text :=
  changes.filterMap fun
    | .setField other value => if other.fold = name.fold then some value else none
    | .addPerson _ _ => none

def Change.persons (role : Text) (changes : List Change) : List Person :=
  changes.filterMap fun
    | .setField _ _ => none
    | .addPerson other person => if other.fold = role.fold then some person else none

/-- An entry keeps what changes set and add. -/
structure Keeps (e : Entry) (changes : List Change) : Prop where
  /-- There is one field for each name, in the order in which the names were first set. -/
  names : e.fields.names = (Change.names changes).eraseDups
  distinct : e.fields.names.Nodup
  /-- A field has the value that was set last, in any spelling of its name. -/
  field : ∀ name, e.field? name = (Change.values name changes).getLast?
  value : ∀ name value, (name.fold, value) ∈ e.fields ↔
    (Change.values name changes).getLast? = some value
  persons : ∀ role, e.personsOf role = Change.persons role changes

end Entry

/-! ## Adding -/

namespace Database

variable {d d' : Database}

theorem clashes_entries (d : Database) (e : Entry) :
    e.clashes (d.entries.map Prod.snd) = d.contains e.key := by
  rw [Bool.eq_iff_iff, contains_iff_mem_map_fold_keys, Entry.clashes, List.any_map,
    List.any_eq_true, keys]
  simp

theorem contains_of_entries {added : List Entry}
    (h : d'.entries = d.entries ++ underKeys added) (key : Text) :
    d'.contains key = true ↔ d.contains key = true ∨ key.fold ∈ added.map (·.key.fold) := by
  have hnames : (underKeys added).names = added.map (·.key.fold) := by
    rw [underKeys, Table.names, List.map_map]
    rfl
  rw [contains_iff_mem_names, contains_iff_mem_names, h, Table.names, List.map_append,
    List.mem_append, ← hnames]
  rfl

theorem apply_add_of_new {e : Entry} (hnew : d.contains e.key = false) :
    ∃ added, (Change.add e).apply d = (added, none) ∧ d.add e = .ok added := by
  have hadd : d.add e = .ok (d.withEntry e hnew) := by
    rw [add, dif_neg (by simp [hnew])]
  exact ⟨_, by rw [Change.apply, hadd], hadd⟩

theorem apply_add_of_contains {e : Entry} (hold : d.contains e.key = true) :
    (Change.add e).apply d = (d, some (.duplicateKey e.key)) ∧
      d.add e = .error (.duplicateKey e.key) := by
  have hadd : d.add e = .error (.duplicateKey e.key) := by rw [add, dif_pos hold]
  exact ⟨by rw [Change.apply, hadd], hadd⟩

/-- **Entries without a clash are added one by one.** -/
theorem addAll_append {before : List Entry} (hnew : ∀ e ∈ before, d.contains e.key = false)
    (hdistinct : (before.map (·.key.fold)).Nodup) (more : List Entry) :
    d.addAll (before ++ more) = (d.applyAll (before.map .add)).addAll more := by
  induction before generalizing d with
  | nil => rfl
  | cons e before ih =>
    obtain ⟨he, hbefore⟩ := List.forall_mem_cons.1 hnew
    rw [List.map_cons, List.nodup_cons] at hdistinct
    obtain ⟨added, happly, hadd⟩ := apply_add_of_new he
    -- the keys of the others differ from the one that was added, so they are new still
    have hstill : ∀ b ∈ before, added.contains b.key = false := by
      intro b hb
      rw [Bool.eq_false_iff, Ne, contains_of_entries (add_eq_ok_iff.1 hadd).1, hbefore b hb]
      rintro (hfalse | hsame)
      · cases hfalse
      · rw [List.map_singleton, List.mem_singleton] at hsame
        exact hdistinct.1 (hsame ▸ List.mem_map_of_mem hb)
    rw [List.cons_append, addAll, hadd, List.map_cons, applyAll, List.foldl_cons, happly]
    exact ih hstill hdistinct.2

theorem addAll_of_new {es : List Entry} (hnew : ∀ e ∈ es, d.contains e.key = false)
    (hdistinct : (es.map (·.key.fold)).Nodup) :
    d.addAll es = (d.applyAll (es.map .add), none) := by
  have h := addAll_append hnew hdistinct []
  rwa [List.append_nil, addAll] at h

theorem entries_applyAll_add {es : List Entry} (hnew : ∀ e ∈ es, d.contains e.key = false)
    (hdistinct : (es.map (·.key.fold)).Nodup) :
    (d.applyAll (es.map .add)).entries = d.entries ++ underKeys es ∧
      (d.applyAll (es.map .add)).preamble = d.preamble :=
  addAll_eq_none_iff.1 (addAll_of_new hnew hdistinct)

theorem applyAll_addToPreamble (d : Database) (chunks : List Text) :
    d.applyAll (chunks.map .addToPreamble) = { d with preamble := d.preamble ++ chunks } := by
  induction chunks generalizing d with
  | nil => exact ext_entries rfl (List.append_nil _).symm
  | cons chunk chunks ih =>
    refine (ih (d.addToPreamble chunk)).trans (ext_entries rfl ?_)
    exact List.append_assoc ..

/-! ## Merging -/

theorem nodup_fold_keys (other : Database) :
    ((other.entries.map Prod.snd).map (·.key.fold)).Nodup := by
  rw [List.map_map]
  have h := other.nodup_map_fold_keys
  rwa [keys, List.map_map] at h

theorem nodup_of_split {other : Database} {before more : List Entry}
    (hsplit : other.entries.map Prod.snd = before ++ more) :
    (before.map (·.key.fold)).Nodup := by
  have h := other.nodup_fold_keys
  rw [hsplit, List.map_append] at h
  exact (List.nodup_append.1 h).1

theorem applyAll_append (d : Database) (changes more : List Change) :
    d.applyAll (changes ++ more) = (d.applyAll changes).applyAll more :=
  List.foldl_append ..

theorem merge_of_new {other : Database}
    (hnew : ∀ e ∈ other.entries.map Prod.snd, d.contains e.key = false) :
    d.merge other = (d.applyAll ((other.entries.map Prod.snd).map .add ++
      other.preamble.map .addToPreamble), none) := by
  rw [merge, addAll_of_new hnew other.nodup_fold_keys, applyAll_append, applyAll_addToPreamble]

theorem merge_of_clash {other : Database} {before after : List Entry} {e : Entry}
    (hsplit : other.entries.map Prod.snd = before ++ e :: after)
    (hnew : ∀ b ∈ before, d.contains b.key = false) (hold : d.contains e.key = true) :
    d.merge other = (d.applyAll (before.map .add), some (.duplicateKey e.key)) := by
  have hdistinct := nodup_of_split hsplit
  have hcontains : (d.applyAll (before.map .add)).contains e.key = true :=
    (contains_of_entries (entries_applyAll_add hnew hdistinct).1 e.key).2 (Or.inl hold)
  rw [merge, hsplit, addAll_append hnew hdistinct, addAll, (apply_add_of_contains hcontains).2]

/-- The entries of a database up to the first one whose key another database has. -/
theorem new_or_clash (d other : Database) :
    (∀ e ∈ other.entries.map Prod.snd, d.contains e.key = false) ∨
      ∃ before e after, other.entries.map Prod.snd = before ++ e :: after ∧
        (∀ b ∈ before, d.contains b.key = false) ∧ d.contains e.key = true := by
  generalize other.entries.map Prod.snd = es
  induction es with
  | nil => exact Or.inl (List.forall_mem_nil _)
  | cons e es ih =>
    by_cases he : d.contains e.key = true
    · exact Or.inr ⟨[], e, es, rfl, List.forall_mem_nil _, he⟩
    · rw [Bool.not_eq_true] at he
      rcases ih with hnew | ⟨before, e', after, rfl, hbefore, he'⟩
      · exact Or.inl (List.forall_mem_cons.2 ⟨he, hnew⟩)
      · exact Or.inr ⟨e :: before, e', after, rfl, List.forall_mem_cons.2 ⟨he, hbefore⟩, he'⟩

/-! ## The ledger -/

theorem map_snd_underKeys (es : List Entry) : (underKeys es).map Prod.snd = es := by
  rw [underKeys, List.map_map]
  exact List.map_id es

/-- **A change adds what the ledger says.** -/
theorem apply_records (d : Database) (change : Change) :
    ((change.apply d).1.entries.map Prod.snd =
        d.entries.map Prod.snd ++ change.accepted (d.entries.map Prod.snd)) ∧
      (change.apply d).1.preamble =
        d.preamble ++ change.chunks (d.entries.map Prod.snd) := by
  cases change with
  | add e =>
    rw [Change.accepted, clashes_entries, Change.chunks, List.append_nil]
    by_cases he : d.contains e.key = true
    · rw [(apply_add_of_contains he).1, if_pos he, List.append_nil]
      exact ⟨rfl, rfl⟩
    · obtain ⟨added, happly, hadd⟩ := apply_add_of_new (Bool.eq_false_iff.2 he)
      obtain ⟨hentries, hpreamble⟩ := add_eq_ok_iff.1 hadd
      rw [happly, if_neg he, hentries, List.map_append, map_snd_underKeys]
      exact ⟨rfl, hpreamble⟩
  | addToPreamble chunk =>
    rw [Change.accepted, List.append_nil]
    exact ⟨rfl, rfl⟩
  | merge other =>
    simp only [Change.apply, Change.accepted, Change.chunks, clashes_entries]
    rcases d.new_or_clash other with hnew | ⟨before, e, after, hsplit, hnew, hold⟩
    -- without a clash every entry is accepted, and the chunks behind them
    · have hmerge := merge_of_new hnew
      obtain ⟨hentries, hpreamble⟩ := merge_eq_none_iff.1 hmerge
      have hnone : (other.entries.map Prod.snd).any (fun e => d.contains e.key) = false := by
        rw [List.any_eq_false]
        intro e he
        rw [hnew e he, Bool.false_eq_true]
        exact id
      have hall : (other.entries.map Prod.snd).takeWhile (fun e => !d.contains e.key) =
          other.entries.map Prod.snd := by
        have hkept : ∀ e ∈ other.entries.map Prod.snd, (!d.contains e.key) = true := by
          intro e he
          rw [hnew e he, Bool.not_false]
        rw [← List.append_nil (other.entries.map Prod.snd), List.takeWhile_append_of_pos hkept,
          List.takeWhile_nil]
      rw [hmerge, hentries, hpreamble, hnone, hall, List.map_append]
      exact ⟨rfl, rfl⟩
    -- the clash ends the merging: neither what is behind it nor any chunk is accepted
    · obtain ⟨hentries, hpreamble⟩ := entries_applyAll_add hnew (nodup_of_split hsplit)
      have hsome : (before ++ e :: after).any (fun e => d.contains e.key) = true := by
        simp [hold]
      have hfirst : (before ++ e :: after).takeWhile (fun e => !d.contains e.key) = before := by
        rw [List.takeWhile_append_of_pos fun b hb => by rw [hnew b hb, Bool.not_false],
          List.takeWhile_cons_of_neg (by simp [hold]), List.append_nil]
      rw [merge_of_clash hsplit hnew hold, hsplit, hsome, hfirst, if_pos rfl, List.append_nil,
        hentries, hpreamble, List.map_append, map_snd_underKeys]
      exact ⟨rfl, rfl⟩

/-- Changes leave what is accepted of them. -/
theorem applyAll_empty (changes : List Change) :
    (empty.applyAll changes).entries.map Prod.snd = (ledgerOf changes).entries ∧
      (empty.applyAll changes).preamble = (ledgerOf changes).preamble := by
  -- the last change meets what all others left, so the induction is from the end
  induction changes using List.reverseRecOn with
  | nil => exact ⟨rfl, rfl⟩
  | append_singleton changes change ih =>
    obtain ⟨hentries, hpreamble⟩ := apply_records (empty.applyAll changes) change
    rw [ih.1] at hentries hpreamble
    rw [applyAll_append, ledgerOf, List.foldl_append]
    exact ⟨hentries, by rw [ih.2] at hpreamble; exact hpreamble⟩

theorem keeps_changes (changes : List Change) : (empty.applyAll changes).Keeps changes := by
  obtain ⟨hentries, hpreamble⟩ := applyAll_empty changes
  generalize hd : empty.applyAll changes = d at hentries hpreamble
  have happly : ∀ more, empty.applyAll (changes ++ more) = d.applyAll more := by
    intro more
    rw [applyAll_append, hd]
  have hentry : ∀ key e, d.entry? key = some e ↔
      e ∈ (ledgerOf changes).entries ∧ e.key.fold = key.fold := by
    intro key e
    rw [← hentries]
    constructor
    · intro h
      exact ⟨List.mem_map.2 ⟨_, Table.mem_of_get?_eq_some h, rfl⟩, fold_key_of_entry h⟩
    · rintro ⟨hmem, hkey⟩
      obtain ⟨⟨folded, e⟩, hp, rfl⟩ := List.mem_map.1 hmem
      have hfolded : folded = e.key.fold := d.keyed _ hp
      unfold entry?
      rw [← hkey]
      exact Table.get?_eq_some_of_mem d.distinct (hfolded ▸ hp)
  refine ⟨hentries, hpreamble, hentries ▸ d.nodup_fold_keys, hentry, fun key => ?_, fun e => ?_,
    fun other hnew => ?_, fun other before e after hsplit hnew hold => ?_⟩
  · rw [contains, Option.isSome_iff_exists]
    simp only [hentry]
  · rw [happly]
    split
    · next hold => exact (apply_add_of_contains hold).1
    · next hnew =>
      obtain ⟨added, hadded, -⟩ := apply_add_of_new (Bool.eq_false_iff.2 hnew)
      rw [applyAll, List.foldl_cons, hadded]
      rfl
  · rw [happly, merge_of_new hnew]
  · rw [happly, merge_of_clash hsplit hnew hold]

end Database

/-! ## Entries -/

namespace Entry

theorem eraseDups_concat (names : List Text) (name : Text) :
    (names ++ [name]).eraseDups =
      if name ∈ names then names.eraseDups else names.eraseDups ++ [name] := by
  rw [List.eraseDups_append]
  by_cases h : name ∈ names
  · have hold : [name].removeAll names = [] := by simp [List.removeAll, h]
    rw [hold, if_pos h, List.eraseDups_nil, List.append_nil]
  · have hnew : [name].removeAll names = [name] := by simp [List.removeAll, h]
    rw [hnew, if_neg h]
    rfl

/-- An entry after changes. -/
theorem foldl_concat (e : Entry) (changes : List Change) (change : Change) :
    (changes ++ [change]).foldl Change.apply e = change.apply (changes.foldl Change.apply e) := by
  rw [List.foldl_append, List.foldl_cons, List.foldl_nil]

variable (key kind : Text) (changes : List Change)

theorem names_changes :
    (changes.foldl Change.apply (empty key kind)).fields.names =
      (Change.names changes).eraseDups := by
  induction changes using List.reverseRecOn with
  | nil => rfl
  | append_singleton changes change ih =>
    rw [foldl_concat, Change.names, List.filterMap_append]
    cases change with
    | setField name value =>
      refine (Table.names_set ..).trans ?_
      simp only [ih, List.mem_eraseDups]
      exact (eraseDups_concat _ _).symm
    | addPerson role person =>
      refine ih.trans ?_
      rw [List.filterMap_cons_none rfl, List.filterMap_nil, List.append_nil]
      rfl

theorem nodup_names_changes :
    (changes.foldl Change.apply (empty key kind)).fields.names.Nodup := by
  induction changes using List.reverseRecOn with
  | nil => exact List.nodup_nil
  | append_singleton changes change ih =>
    rw [foldl_concat]
    cases change with
    | setField name value => exact Table.nodup_names_set ih name.fold value
    | addPerson role person => exact ih

theorem field?_changes (name : Text) :
    (changes.foldl Change.apply (empty key kind)).field? name =
      (Change.values name changes).getLast? := by
  induction changes using List.reverseRecOn with
  | nil => rfl
  | append_singleton changes change ih =>
    rw [foldl_concat, Change.values, List.filterMap_append]
    cases change with
    | setField other value =>
      rw [Change.apply, field?_setField]
      by_cases hname : other.fold = name.fold
      · simp [hname]
      · rw [if_neg (Ne.symm hname), ih]
        simp [hname, Change.values]
    | addPerson role person =>
      refine ih.trans ?_
      rw [List.filterMap_cons_none rfl, List.filterMap_nil, List.append_nil]
      rfl

theorem personsOf_changes (role : Text) :
    (changes.foldl Change.apply (empty key kind)).personsOf role =
      Change.persons role changes := by
  induction changes using List.reverseRecOn with
  | nil => rfl
  | append_singleton changes change ih =>
    rw [foldl_concat, Change.persons, List.filterMap_append]
    cases change with
    | setField name value =>
      refine ih.trans ?_
      rw [List.filterMap_cons_none rfl, List.filterMap_nil, List.append_nil]
      rfl
    | addPerson other person =>
      rw [Change.apply, personsOf_addPerson, ih]
      by_cases hrole : other.fold = role.fold
      · simp [hrole, Change.persons]
      · simp [hrole, Ne.symm hrole, Change.persons]

theorem keeps_changes : (changes.foldl Change.apply (empty key kind)).Keeps changes := by
  have hdistinct := nodup_names_changes key kind changes
  refine ⟨names_changes key kind changes, hdistinct, field?_changes key kind changes,
    fun name value => ?_, personsOf_changes key kind changes⟩
  rw [← field?_changes key kind changes name]
  exact ⟨Table.get?_eq_some_of_mem hdistinct, Table.mem_of_get?_eq_some⟩

end Entry

/-- **Databases and entries keep what is done to them**, whatever the changes are and whichever of
them fail. -/
theorem stores_keep_changes :
    (∀ changes : List Database.Change, (Database.empty.applyAll changes).Keeps changes) ∧
      ∀ (key kind : Text) (changes : List Entry.Change),
        (changes.foldl Entry.Change.apply (Entry.empty key kind)).Keeps changes :=
  ⟨Database.keeps_changes, Entry.keeps_changes⟩

end Bibliography
