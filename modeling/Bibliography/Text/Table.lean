import Bibliography.Text.Basic

set_option autoImplicit false

/-! # Tables

A table maps names to values and remembers the order in which the names were first set. Setting
a name again changes its value and keeps its place. -/

namespace Bibliography

/-- Names with values, in the order in which the names were first set. -/
abbrev Table (α : Type) := List (Text × α)

namespace Table

variable {α : Type}

def get? (t : Table α) (name : Text) : Option α := t.lookup name

def contains (t : Table α) (name : Text) : Bool := (t.get? name).isSome

/-- Gives the name a value, at its place if it has one and else at the end. -/
def set : Table α → Text → α → Table α
  | [], name, value => [(name, value)]
  | (n, v) :: rest, name, value =>
    if name = n then (n, value) :: rest else (n, v) :: set rest name value

def names (t : Table α) : List Text := t.map Prod.fst

theorem get?_nil (name : Text) : get? ([] : Table α) name = none := rfl

theorem get?_cons (n name : Text) (v : α) (t : Table α) :
    get? ((n, v) :: t) name = if name = n then some v else get? t name := by
  unfold get?
  rw [List.lookup_cons]
  split <;> simp_all

/-- A name has the value that was set last. -/
theorem get?_set (t : Table α) (name other : Text) (value : α) :
    get? (t.set name value) other = if other = name then some value else get? t other := by
  induction t with
  | nil => simp [set, get?_cons, get?_nil]
  | cons p rest ih =>
    obtain ⟨n, v⟩ := p
    by_cases h : name = n
    · subst h
      by_cases ho : other = name <;> simp [set, get?_cons, ho]
    · by_cases ho : other = n
      · subst ho
        simp [set, h, get?_cons, Ne.symm h]
      · simp [set, h, get?_cons, ho, ih]

/-- The names of a table are those that have a value. -/
theorem contains_iff_mem_names (t : Table α) (name : Text) :
    t.contains name = true ↔ name ∈ names t := by
  unfold contains
  induction t with
  | nil => simp [get?_nil, names]
  | cons p rest ih =>
    obtain ⟨n, v⟩ := p
    by_cases h : name = n
    · simp [get?_cons, names, h]
    · simp only [get?_cons, h, if_false, ih]
      simp [names, h]

theorem get?_eq_none_iff (t : Table α) (name : Text) : t.get? name = none ↔ name ∉ names t := by
  rw [← contains_iff_mem_names, contains, Bool.not_eq_true, Option.isSome_eq_false_iff,
    Option.isNone_iff_eq_none]

theorem mem_names_of_get?_eq_some {t : Table α} {name : Text} {value : α}
    (h : t.get? name = some value) : name ∈ names t := by
  rw [← contains_iff_mem_names, contains, h]
  rfl

/-- A value that a name has stands in the table under that name. -/
theorem mem_of_get?_eq_some {t : Table α} {name : Text} {value : α}
    (h : get? t name = some value) : (name, value) ∈ t := by
  induction t with
  | nil => simp [get?_nil] at h
  | cons p rest ih =>
    obtain ⟨n, v⟩ := p
    rw [get?_cons] at h
    split at h
    · next hn =>
      obtain rfl := Option.some.inj h
      simp [hn]
    · exact List.mem_cons_of_mem _ (ih h)

/-- Where no name stands twice, what stands under a name is its value. -/
theorem get?_eq_some_of_mem {t : Table α} (hd : (names t).Nodup) {name : Text} {value : α}
    (h : (name, value) ∈ t) : get? t name = some value := by
  induction t with
  | nil => simp at h
  | cons p rest ih =>
    obtain ⟨n, v⟩ := p
    simp only [names, List.map_cons, List.nodup_cons] at hd
    rw [get?_cons]
    rcases List.mem_cons.1 h with heq | hmem
    · obtain ⟨rfl, rfl⟩ := Prod.mk.inj heq
      simp
    · have hne : name ≠ n := by
        rintro rfl
        exact hd.1 (List.mem_map.2 ⟨_, hmem, rfl⟩)
      rw [if_neg hne]
      exact ih hd.2 hmem

/-- The names after setting one: it joins at the end if it is new. -/
theorem names_set (t : Table α) (name : Text) (value : α) :
    names (t.set name value) = if name ∈ names t then names t else names t ++ [name] := by
  induction t with
  | nil => simp [set, names]
  | cons p rest ih =>
    obtain ⟨n, v⟩ := p
    by_cases h : name = n
    · simp [set, names, h]
    · simp only [names] at ih
      by_cases hm : name ∈ rest.map Prod.fst
      · simp [set, names, h, hm, ih]
      · simp [set, names, h, hm, ih]

/-- Setting a name does not put it there twice. -/
theorem nodup_names_set {t : Table α} (ht : (names t).Nodup) (name : Text) (value : α) :
    (names (t.set name value)).Nodup := by
  rw [names_set]
  split
  · exact ht
  · next hnew =>
    refine List.nodup_append.2 ⟨ht, List.pairwise_singleton _ _, fun n hn m hm => ?_⟩
    rw [List.mem_singleton.1 hm]
    exact ne_of_mem_of_not_mem hn hnew

end Table

end Bibliography
