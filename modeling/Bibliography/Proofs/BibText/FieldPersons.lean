import Bibliography.Proofs.BibText.Assembly
import Bibliography.Proofs.BibText.PlainContents
import Mathlib.Data.List.Induction

set_option autoImplicit false

/-! # Fields and the persons that they name

The author and editor fields of an entry are kept twice: as texts, and as the persons that their
values name. A field that is given again replaces its text, while its persons join those that were
read before. So the persons of a role are those of all values that the entry gives for it, and the
text is the last of these values (`persons_of_ofText`). The two views agree unless a field is
repeated; then they need not (`not_persons_of_last_value`).
-/

namespace Bibliography

/-! ## Setting fields and adding persons -/

namespace Entry

theorem field?_setField (e : Entry) (name value other : Text) :
    (e.setField name value).field? other =
      if other.fold = name.fold then some value else e.field? other :=
  Table.get?_set e.fields name.fold other.fold value

theorem personsOf_setField (e : Entry) (name value role : Text) :
    (e.setField name value).personsOf role = e.personsOf role := rfl

end Entry

namespace BibText

theorem personsOf_withPersons (role : Text) (persons : List Person) (e : Entry) (other : Text) :
    (withPersons role persons e).personsOf other =
      e.personsOf other ++ if other.fold = role.fold then persons else [] := by
  rw [withPersons]
  split
  · next hnone => rw [hnone, ite_self, List.append_nil]
  · rw [Entry.personsOf, Table.get?_set]
    split
    · next hsame =>
      rw [Option.getD_some, Entry.personsOf, Entry.personsOf, hsame]
    · rw [List.append_nil, Entry.personsOf]

theorem field?_addField (name value : Text) (e : Entry) (other : Text) :
    (addField name value e).1.field? other =
      if other.fold = name.fold then some value else e.field? other := by
  rw [addField]
  dsimp only
  split
  · rw [addPersons_eq, Entry.field?_setField, Entry.field?, fields_withPersons, Entry.field?]
  · exact Entry.field?_setField e name value other

/-- A field adds the persons that its value names to those of its role. -/
theorem personsOf_addField {name role : Text} (hname : name.fold = name)
    (hrole : personFields.contains role = true) (hfold : role.fold = role) (value : Text)
    (e : Entry) :
    (addField name value e).1.personsOf role =
      e.personsOf role ++
        if role = name then readPersons (Tex.splitNameList value) else [] := by
  rw [addField]
  dsimp only
  split
  · rw [addPersons_eq, Entry.personsOf_setField, personsOf_withPersons, hname, hfold]
  · next hother =>
    have hne : role ≠ name := by
      rintro rfl
      exact hother hrole
    rw [Entry.personsOf_setField, if_neg hne, List.append_nil]

/-! ## The values of a name -/

def valuesOf (a : Abbreviations) (name : Text) (fields : List BibField) : List Text :=
  (fields.filter (·.name = name)).map (·.value.expand a)

theorem valuesOf_concat (a : Abbreviations) (name : Text) (fields : List BibField) (f : BibField) :
    valuesOf a name (fields ++ [f]) =
      valuesOf a name fields ++ if f.name = name then [f.value.expand a] else [] := by
  rw [valuesOf, List.filter_append, List.map_append, valuesOf]
  by_cases hname : f.name = name <;> simp [hname]

theorem entryOf_concat (a : Abbreviations) (kind key : Text) (fields : List BibField)
    (f : BibField) : entryOf a kind key (fields ++ [f]) =
      (addField f.name (f.value.expand a) (entryOf a kind key fields)).1 := by
  rw [entryOf, List.foldl_append]
  rfl

/-- Fields whose names are folded already, as reading leaves them. -/
def Folded (fields : List BibField) : Prop := ∀ f ∈ fields, f.name.fold = f.name

/-- The text of a field is the last of its values. -/
theorem field?_entryOf {name : Text} (hfold : name.fold = name) {fields : List BibField}
    (hfields : Folded fields) (a : Abbreviations) (kind key : Text) :
    (entryOf a kind key fields).field? name = (valuesOf a name fields).getLast? := by
  induction fields using List.reverseRecOn with
  | nil => rfl
  | append_singleton fields f ih =>
    have hf : f.name.fold = f.name := hfields f (by simp)
    have ih := ih fun g hg => hfields g (List.mem_append_left _ hg)
    rw [entryOf_concat, field?_addField, ih, valuesOf_concat, hf, hfold]
    by_cases hname : name = f.name
    · simp [hname]
    · simp [hname, Ne.symm hname]

/-- The persons of a role are those of all values of its field. -/
theorem personsOf_entryOf {role : Text} (hrole : personFields.contains role = true)
    (hfold : role.fold = role) {fields : List BibField} (hfields : Folded fields)
    (a : Abbreviations) (kind key : Text) :
    (entryOf a kind key fields).personsOf role =
      (valuesOf a role fields).flatMap fun v => readPersons (Tex.splitNameList v) := by
  induction fields using List.reverseRecOn with
  | nil => rfl
  | append_singleton fields f ih =>
    have hf : f.name.fold = f.name := hfields f (by simp)
    have ih := ih fun g hg => hfields g (List.mem_append_left _ hg)
    rw [entryOf_concat, personsOf_addField hf hrole hfold, ih, valuesOf_concat,
      List.flatMap_append]
    by_cases hname : role = f.name
    · simp [hname]
    · simp [hname, Ne.symm hname]

/-! ## Names of fields -/

def itemFields : BibItem → List BibField
  | .preamble _ => []
  | .definitions fields => fields
  | .entry _ _ fields => fields

theorem fold_name_of_takeField {c d : Cursor} {f : BibField} (h : takeField c = .ok (f, d)) :
    f.name.fold = f.name := by
  rw [takeField] at h
  dsimp only at h
  split at h
  · cases h
  split at h
  · cases h
  split at h
  · cases h
  cases h
  exact Unicode.foldCase_foldCase _

theorem folded_takeFields (close : Char) (c : Cursor) : Folded (takeFields close c).1 := by
  fun_induction takeFields close c with
  | case1 c hclose => exact List.forall_mem_nil _
  | case2 c hopen e hfield => exact List.forall_mem_nil _
  | case3 c hopen field e hfield hcomma fields result hrest ih =>
    rw [hrest] at ih
    exact List.forall_mem_cons.2 ⟨fold_name_of_takeField hfield, ih⟩
  | case4 c hopen field e hfield hcomma hclose =>
    exact List.forall_mem_singleton.2 (fold_name_of_takeField hfield)
  | case5 c hopen field e hfield hcomma hclose =>
    exact List.forall_mem_singleton.2 (fold_name_of_takeField hfield)

theorem folded_takeEntry {kind : Text} {close : Char} {c : Cursor} {i : BibItem}
    (h : (takeEntry kind close c).1 = some i) : Folded (itemFields i) := by
  rw [takeEntry] at h
  dsimp only at h
  split at h
  · cases h
  split at h
  · cases h
    exact List.forall_mem_nil _
  split at h
  · cases h
  · cases h
    exact folded_takeFields _ _

theorem folded_takeItem {c : Cursor} {i : BibItem} (h : (takeItem c).1 = some i) :
    Folded (itemFields i) := by
  rw [takeItem] at h
  dsimp only at h
  split at h
  · cases h
  split at h
  · cases h
  split at h
  · cases h
  rw [takeContent] at h
  split at h
  · split at h
    · cases h
    split at h
    · cases h
    · cases h
      exact List.forall_mem_nil _
  split at h
  · cases h
    exact folded_takeFields _ _
  · exact folded_takeEntry h

/-- The fields of all items of a text have names in lower case. -/
theorem folded_takeItems (c : Cursor) : ∀ i ∈ (takeItems c).1, Folded (itemFields i) := by
  fun_induction takeItems c with
  | case1 c found hfound item e => exact List.forall_mem_nil _
  | case2 c found hfound item e hitem items failure hrest =>
    rename_i ih
    rw [hrest] at ih
    intro i hi
    rcases List.mem_append.1 hi with hi | hi
    · refine folded_takeItem (c := found.next) ?_
      rw [hitem]
      exact Option.mem_toList.1 hi
    · exact ih i hi
  | case3 c found => exact List.forall_mem_nil _

/-! ## Databases -/

theorem fold_of_mem_personFields {role : Text} (h : role ∈ personFields) : role.fold = role := by
  have hroles : personFields.all (fun r => r.fold = r) = true := by decide +kernel
  exact of_decide_eq_true (List.all_eq_true.1 hroles role h)

/-- An entry of a database comes from an item of its file. -/
theorem exists_item_of_mem_entries {source file : Text} {a : Abbreviations} {d : Database}
    (h : (Database.ofText source file a).1 = .ok d) {e : Entry}
    (he : e ∈ d.entries.map Prod.snd) :
    ∃ before kind key fields after, (items source).1 = before ++ .entry kind key fields :: after ∧
      e = entryOf (abbreviationsAfter a before) kind key fields := by
  obtain ⟨-, hentries, -⟩ := Database.ofText_eq_ok_iff.1 h
  have hmem : e ∈ collect BibItem.entry? a (items source).1 := by
    rw [hentries, Database.underKeys, List.map_map] at he
    exact (List.map_id _ ▸ he : e ∈ _)
  obtain ⟨before, i, after, hitems, hi⟩ := exists_of_mem_collect hmem
  cases i with
  | preamble v => cases hi
  | definitions fields => cases hi
  | entry kind key fields =>
    cases hi
    exact ⟨before, kind, key, fields, after, hitems, rfl⟩

theorem folded_of_items {source : Text} {before after : List BibItem} {kind key : Text}
    {fields : List BibField}
    (h : (items source).1 = before ++ .entry kind key fields :: after) : Folded fields := by
  refine folded_takeItems (.start source) (.entry kind key fields) ?_
  show BibItem.entry kind key fields ∈ (items source).1
  simp [h]

/-- **The persons of a role are those that the values of its field name.** An entry of a file comes
from an item, which gives values for the field. The text of the field is the last of them, and the
persons are those of all of them; an entry without the field has none. So field and persons agree if
the field is not repeated. -/
theorem persons_of_ofText {source file : Text} {a : Abbreviations} {d : Database}
    (h : (Database.ofText source file a).1 = .ok d) {e : Entry}
    (he : e ∈ d.entries.map Prod.snd) {role : Text} (hrole : role ∈ personFields) :
    ∃ before kind key fields after,
      (items source).1 = before ++ .entry kind key fields :: after ∧
      e = entryOf (abbreviationsAfter a before) kind key fields ∧
      e.field? role = (valuesOf (abbreviationsAfter a before) role fields).getLast? ∧
      e.personsOf role = (valuesOf (abbreviationsAfter a before) role fields).flatMap
        (fun v => readPersons (Tex.splitNameList v)) ∧
      (e.field? role = none → e.personsOf role = []) ∧
      (fields.countP (·.name = role) ≤ 1 → ∀ v, e.field? role = some v →
        e.personsOf role = readPersons (Tex.splitNameList v)) := by
  obtain ⟨before, kind, key, fields, after, hitems, rfl⟩ := exists_item_of_mem_entries h he
  have hfolded := folded_of_items hitems
  have hfold := fold_of_mem_personFields hrole
  have hfield := field?_entryOf hfold hfolded (abbreviationsAfter a before) kind key
  have hpersons := personsOf_entryOf (List.contains_iff_mem.2 hrole) hfold hfolded
    (abbreviationsAfter a before) kind key
  refine ⟨before, kind, key, fields, after, hitems, rfl, hfield, hpersons, ?_, ?_⟩
  · intro hnone
    rw [hfield, List.getLast?_eq_none_iff] at hnone
    rw [hpersons, hnone, List.flatMap_nil]
  · intro honce v hv
    have hlength : (valuesOf (abbreviationsAfter a before) role fields).length ≤ 1 := by
      rwa [valuesOf, List.length_map, ← List.countP_eq_length_filter]
    rw [hfield] at hv
    rw [hpersons]
    generalize valuesOf (abbreviationsAfter a before) role fields = values at hlength hv
    cases values with
    | nil => cases hv
    | cons w values =>
      obtain rfl : values = [] := by simpa using hlength
      cases hv
      exact List.flatMap_singleton _ _

/-- An entry that repeats its author field, and has an editor that cannot be read. -/
def repeatedSample : Text :=
  ("@misc\x7bk, author = \x7bAnn Lee\x7d, AUTHOR = \x7bBob Ray\x7d, " ++
    "Editor = \x7bA, B, C, D and Cy Day\x7d\x7d").toList

/-- The entry as it is taken over. -/
def repeatedEntry : Entry where
  key := "k".toList
  kind := "misc".toList
  fields :=
    [("author".toList, "Bob Ray".toList), ("editor".toList, "A, B, C, D and Cy Day".toList)]
  persons :=
    [("author".toList,
        [{ first := ["Ann".toList], last := ["Lee".toList] },
          { first := ["Bob".toList], last := ["Ray".toList] }]),
      ("editor".toList, [{ first := ["Cy".toList], last := ["Day".toList] }])]

def repeatedDatabase : Database where
  entries := [("k".toList, repeatedEntry)]
  keyed := by decide +kernel
  distinct := by decide +kernel

theorem ofText_repeatedSample :
    (Database.ofText repeatedSample ['f'] []).1 = .ok repeatedDatabase :=
  Database.ofText_eq_ok_iff.2 (by decide +kernel)

theorem persons_of_repeatedSample :
    (Database.ofText repeatedSample ['f'] []).1 = .ok repeatedDatabase ∧
      repeatedEntry ∈ repeatedDatabase.entries.map Prod.snd ∧ "editor".toList ∈ personFields ∧
      repeatedEntry.personsOf "editor".toList =
        readPersons (Tex.splitNameList "A, B, C, D and Cy Day".toList) := by
  have hmem : repeatedEntry ∈ repeatedDatabase.entries.map Prod.snd := List.mem_singleton.2 rfl
  have hrole : "editor".toList ∈ personFields := by decide
  have hfield : repeatedEntry.field? "editor".toList = some "A, B, C, D and Cy Day".toList := by
    decide +kernel
  refine ⟨ofText_repeatedSample, hmem, hrole, ?_⟩
  obtain ⟨before, kind, key, fields, after, hitems, -, -, -, -, honce⟩ :=
    persons_of_ofText ofText_repeatedSample hmem hrole
  -- all items of the text have the field at most once
  have hall : (items repeatedSample).1.all
      (fun i => decide ((itemFields i).countP (·.name = "editor".toList) ≤ 1)) = true := by
    decide +kernel
  have hitem := List.all_eq_true.1 hall (.entry kind key fields) (by simp [hitems])
  exact honce (of_decide_eq_true hitem) _ hfield

/-- The persons of a repeated field are not those of its text: the persons of the text that was
replaced are still there. -/
theorem not_persons_of_last_value :
    ¬ ∀ (source file : Text) (a : Abbreviations) (d : Database),
      (Database.ofText source file a).1 = .ok d →
        ∀ e ∈ d.entries.map Prod.snd, ∀ role ∈ personFields, ∀ v, e.field? role = some v →
          e.personsOf role = readPersons (Tex.splitNameList v) := by
  intro h
  have hmem : repeatedEntry ∈ repeatedDatabase.entries.map Prod.snd := List.mem_singleton.2 rfl
  have hpersons := h repeatedSample ['f'] [] repeatedDatabase ofText_repeatedSample repeatedEntry
    hmem "author".toList (by decide) "Bob Ray".toList (by decide +kernel)
  have hleft : repeatedEntry.personsOf "author".toList ≠
      readPersons (Tex.splitNameList "Bob Ray".toList) := by decide +kernel
  exact hleft hpersons

end BibText

end Bibliography
