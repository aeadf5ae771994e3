import Bibliography.Database.Entry

set_option autoImplicit false

/-! # Databases

A database holds entries in the order in which they were added, and the chunks of its preamble.
Keys are compared after folding to lower case, and no two entries share one. -/

namespace Bibliography

/-- Entries under their folded keys, and the preamble. -/
structure Database where
  entries : Table Entry := []
  preamble : List Text := []
  /-- Every entry stands under its own key. -/
  keyed : ∀ p ∈ entries, p.1 = p.2.key.fold := by exact fun _ h => absurd h List.not_mem_nil
  /-- No two entries share a key. -/
  distinct : entries.names.Nodup := by exact List.Pairwise.nil
  deriving DecidableEq, Repr

namespace Database

def empty : Database := {}

/-- The entry with a key, in any spelling. -/
def entry? (d : Database) (key : Text) : Option Entry := d.entries.get? key.fold

def contains (d : Database) (key : Text) : Bool := (d.entry? key).isSome

def keys (d : Database) : List Text := d.entries.map fun e => e.2.key

/-- There is an entry with a key if its folded form stands in the table. -/
theorem contains_iff_mem_names (d : Database) (key : Text) :
    d.contains key = true ↔ key.fold ∈ d.entries.names :=
  Table.contains_iff_mem_names d.entries key.fold

/-- The entry that a key leads to has that key, up to its spelling. -/
theorem fold_key_of_entry {d : Database} {key : Text} {e : Entry} (h : d.entry? key = some e) :
    e.key.fold = key.fold :=
  (d.keyed _ (Table.mem_of_get?_eq_some h)).symm

/-- Spellings of one key lead to one entry. -/
theorem entry?_congr (d : Database) {key other : Text} (h : key.fold = other.fold) :
    d.entry? key = d.entry? other := by
  unfold entry?
  rw [h]

/-- An entry that a key leads to lends its spelling to the keys of the database. -/
theorem key_mem_keys {d : Database} {key : Text} {e : Entry} (h : d.entry? key = some e) :
    e.key ∈ d.keys :=
  List.mem_map.2 ⟨(key.fold, e), Table.mem_of_get?_eq_some h, rfl⟩

/-- The key of an entry leads to it. -/
theorem exists_entry?_of_mem_keys {d : Database} {key : Text} (h : key ∈ d.keys) :
    ∃ e, d.entry? key = some e ∧ e.key = key := by
  obtain ⟨⟨folded, e⟩, hmem, rfl⟩ := List.mem_map.1 h
  have hfolded : folded = e.key.fold := d.keyed _ hmem
  exact ⟨e, Table.get?_eq_some_of_mem d.distinct (hfolded ▸ hmem), rfl⟩

/-- The names of the table are the folded keys. -/
theorem map_fold_keys (d : Database) : d.keys.map Text.fold = d.entries.names := by
  rw [keys, Table.names, List.map_map]
  exact List.map_congr_left fun p hp => (d.keyed p hp).symm

/-- No key is there in two spellings. -/
theorem nodup_map_fold_keys (d : Database) : (d.keys.map Text.fold).Nodup := by
  rw [map_fold_keys]
  exact d.distinct

/-- Two keys of entries that agree up to their spelling are one. -/
theorem eq_of_fold_eq_of_mem_keys {d : Database} {key other : Text} (hk : key ∈ d.keys)
    (ho : other ∈ d.keys) (h : key.fold = other.fold) : key = other := by
  obtain ⟨e, he, rfl⟩ := exists_entry?_of_mem_keys hk
  obtain ⟨f, hf, rfl⟩ := exists_entry?_of_mem_keys ho
  rw [d.entry?_congr h, hf] at he
  rw [Option.some.inj he]

/-- The keys with an entry are those that some entry has in some spelling. -/
theorem contains_iff_mem_map_fold_keys (d : Database) (key : Text) :
    d.contains key = true ↔ key.fold ∈ d.keys.map Text.fold := by
  rw [map_fold_keys, contains_iff_mem_names]

theorem contains_of_mem_keys {d : Database} {key : Text} (h : key ∈ d.keys) :
    d.contains key = true :=
  (d.contains_iff_mem_map_fold_keys key).2 (List.mem_map_of_mem h)

theorem contains_congr (d : Database) {key other : Text} (h : key.fold = other.fold) :
    d.contains key = d.contains other := by
  rw [contains, contains, d.entry?_congr h]

/-- The table after adding an entry at the end, whose key is new. -/
def withEntry (d : Database) (e : Entry) (hnew : d.contains e.key = false) : Database where
  entries := d.entries ++ [(e.key.fold, e)]
  preamble := d.preamble
  keyed := by
    intro p hp
    rcases List.mem_append.1 hp with hp | hp
    · exact d.keyed p hp
    · rw [List.mem_singleton.1 hp]
  distinct := by
    have hmem : e.key.fold ∉ d.entries.names := by
      rw [← contains_iff_mem_names, hnew]
      simp
    simp only [Table.names, List.map_append, List.map_cons, List.map_nil]
    refine List.nodup_append.2 ⟨d.distinct, by simp, ?_⟩
    rintro n hn m hm rfl
    rw [List.mem_singleton] at hm
    exact hmem (hm ▸ hn)

/-- Adds an entry at the end; its key must be new. -/
def add (d : Database) (e : Entry) : Except DatabaseError Database :=
  if h : d.contains e.key then .error (.duplicateKey e.key)
  else .ok (d.withEntry e (by simpa using h))

/-- Adds entries one by one up to the first whose key is taken, and tells that one. -/
def addAll (d : Database) : List Entry → Database × Option DatabaseError
  | [] => (d, none)
  | e :: es =>
    match d.add e with
    | .error err => (d, some err)
    | .ok d => addAll d es

def addToPreamble (d : Database) (chunk : Text) : Database :=
  { d with preamble := d.preamble ++ [chunk] }

/-- Adds the entries and then the preamble of another database. A key that is taken ends this,
with the entries before it added. -/
def merge (d other : Database) : Database × Option DatabaseError :=
  match d.addAll (other.entries.map Prod.snd) with
  | (d, some err) => (d, some err)
  | (d, none) => ({ d with preamble := d.preamble ++ other.preamble }, none)

def parent? (d : Database) (e : Entry) : Option Entry := e.crossref?.bind d.entry?

/-- The value of a field of an entry: its own, or that of the entry it refers to. -/
def field (d : Database) (e : Entry) (name : Text) : FieldValue :=
  match e.ownValue? name with
  | some value => .present value
  | none =>
    match (d.parent? e).bind (·.ownValue? name) with
    | some value => .present value
    | none => .missing name.fold

end Database

end Bibliography
