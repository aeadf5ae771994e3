import Bibliography.Proofs.Citations.Requests
import Bibliography.Proofs.Run.Steps
import Bibliography.Proofs.Text.Order

set_option autoImplicit false

/-! # Cross references

After the requested entries are known, the entries that enough of them refer to are cited as well
(`addedParents`), and the cross references that lead to a citation can be seen (`seenCrossrefs`).
Three spellings of a key meet here: the one in the citations, the one of the entry and the one in
the cross reference; all comparisons are up to folding. The descriptions of this file count and
search among the citations that refer to a key (`RefersTo`), so they do not depend on how the
entries are collected.

Main statement: `addedParents_eq_uncited_parents`.
-/

namespace Bibliography.Style.Interpreter

/-! ## Lists without repetitions -/

/-- Without repetitions, the values of a partial function stand in the order in which they are
first taken. -/
theorem pairwise_findIdx_eraseDups {α β : Type} [BEq β] [LawfulBEq β] (f : α → Option β)
    (l : List α) :
    ((l.filterMap f).eraseDups).Pairwise fun a b =>
      l.findIdx (fun x => f x == some a) < l.findIdx (fun x => f x == some b) := by
  induction l generalizing f with
  | nil => simp
  | cons x l ih =>
    have hshift : ∀ b, f x ≠ some b → (x :: l).findIdx (fun x => f x == some b)
        = l.findIdx (fun x => f x == some b) + 1 := by
      intro b hb
      rw [List.findIdx_cons, beq_eq_false_iff_ne.2 hb]
      rfl
    cases hx : f x with
    | none =>
      rw [List.filterMap_cons_none hx]
      refine (ih f).imp ?_
      intro a b hab
      rw [hshift a (by simp [hx]), hshift b (by simp [hx])]
      omega
    | some y =>
      rw [List.filterMap_cons_some hx, List.eraseDups_cons, List.filter_filterMap,
        List.pairwise_cons]
      -- what follows the head are the values of `g`, which is `f` without the value `y`
      set g : α → Option β := fun x => (f x).filter fun b => !b == y with hg
      have hne : ∀ b ∈ (l.filterMap g).eraseDups, b ≠ y := by
        intro b hb
        obtain ⟨z, -, hz⟩ := List.mem_filterMap.1 (List.mem_eraseDups.1 hb)
        simpa using (Option.filter_eq_some_iff.1 hz).2
      have hsame : ∀ b, b ≠ y → (fun x => g x == some b) = fun x => f x == some b := by
        intro b hb
        funext z
        cases hz : f z with
        | none => simp [hg, hz]
        | some c =>
          by_cases hc : c = y
          · simp [hg, hz, hc, Ne.symm hb]
          · simp [hg, hz, hc, Option.filter]
      have hfx : ∀ b, b ≠ y → f x ≠ some b := by
        intro b hb h
        rw [hx] at h
        exact hb (Option.some.inj h).symm
      refine ⟨?_, (ih g).imp_of_mem ?_⟩
      · intro b hb
        rw [hshift b (hfx b (hne b hb)), List.findIdx_cons]
        simp [hx]
      · intro a b ha hb hab
        rw [hsame a (hne a ha), hsame b (hne b hb)] at hab
        rw [hshift a (hfx a (hne a ha)), hshift b (hfx b (hne b hb))]
        omega

/-! ## Citations that refer to a key -/

/-- The cross reference of the entry `c` leads to the key `p`. -/
def RefersTo (d : Database) (p c : Text) : Prop :=
  (crossrefOf? d c).map Text.fold = some p.fold

instance (d : Database) (p c : Text) : Decidable (RefersTo d p c) :=
  inferInstanceAs (Decidable (_ = _))

def citingCount (d : Database) (citations : List Text) (p : Text) : Nat :=
  citations.countP fun c => decide (RefersTo d p c)

/-- The place of the first citation that refers to a key. -/
def firstCiting (d : Database) (citations : List Text) (p : Text) : Nat :=
  citations.findIdx fun c => decide (RefersTo d p c)

theorem mem_keys_of_parentKey {d : Database} {c p : Text} (h : parentKey? d c = some p) :
    p ∈ d.keys := by
  obtain ⟨target, -, h⟩ := Option.bind_eq_some_iff.1 h
  obtain ⟨e, he, rfl⟩ := Option.map_eq_some_iff.1 h
  exact Database.key_mem_keys he

theorem parentKey?_eq_some_iff {d : Database} {p : Text} (hp : p ∈ d.keys) (c : Text) :
    parentKey? d c = some p ↔ RefersTo d p c := by
  constructor
  · intro h
    obtain ⟨target, htarget, h⟩ := Option.bind_eq_some_iff.1 h
    obtain ⟨e, he, rfl⟩ := Option.map_eq_some_iff.1 h
    rw [RefersTo, htarget, Option.map_some, Database.fold_key_of_entry he]
  · intro h
    obtain ⟨target, htarget, hfold⟩ := Option.map_eq_some_iff.1 h
    obtain ⟨e, he, rfl⟩ := Database.exists_entry?_of_mem_keys hp
    rw [parentKey?, htarget, Option.bind_some, d.entry?_congr hfold, he, Option.map_some]

theorem parentKey_beq_eq {d : Database} {p : Text} (hp : p ∈ d.keys) :
    (fun c => parentKey? d c == some p) = fun c => decide (RefersTo d p c) := by
  funext c
  by_cases h : RefersTo d p c
  · simp [h, (parentKey?_eq_some_iff hp c).2 h]
  · have hne : parentKey? d c ≠ some p := fun heq => h ((parentKey?_eq_some_iff hp c).1 heq)
    simp [h, hne]

theorem count_referencedKeys {d : Database} {p : Text} (hp : p ∈ d.keys) (citations : List Text) :
    (referencedKeys d citations).count p = citingCount d citations p := by
  rw [referencedKeys, List.count_filterMap, citingCount, parentKey_beq_eq hp]

theorem mem_keys_of_mem_referencedKeys {d : Database} {citations : List Text} {p : Text}
    (h : p ∈ referencedKeys d citations) : p ∈ d.keys := by
  obtain ⟨c, -, hc⟩ := List.mem_filterMap.1 h
  exact mem_keys_of_parentKey hc

/-! ## Entries that are added -/

/-- A key is added if it is the key of an entry that is not cited and has enough references. -/
theorem mem_uncitedParents (min : Nat) (d : Database) (citations : List Text) (p : Text) :
    p ∈ uncitedParents min d citations ↔
      p ∈ d.keys ∧ p.fold ∉ citations.map Text.fold ∧ max min 1 ≤ citingCount d citations p := by
  rw [uncitedParents, List.mem_filter, List.mem_eraseDups]
  simp only [Bool.and_eq_true, Bool.not_eq_true', decide_eq_true_eq, List.contains_eq_mem,
    decide_eq_false_iff_not]
  constructor
  · rintro ⟨hmem, huncited, hcount⟩
    have hp := mem_keys_of_mem_referencedKeys hmem
    have hpos := List.count_pos_iff.2 hmem
    rw [count_referencedKeys hp] at hcount hpos
    exact ⟨hp, huncited, by omega⟩
  · rintro ⟨hp, huncited, hcount⟩
    rw [← count_referencedKeys hp] at hcount
    exact ⟨List.count_pos_iff.1 (by omega), huncited, by omega⟩

theorem pairwise_firstCiting_uncitedParents (min : Nat) (d : Database) (citations : List Text) :
    (uncitedParents min d citations).Pairwise fun a b =>
      firstCiting d citations a < firstCiting d citations b := by
  have hplaces : (uncitedParents min d citations).Pairwise fun a b =>
      citations.findIdx (fun c => parentKey? d c == some a)
        < citations.findIdx (fun c => parentKey? d c == some b) :=
    (pairwise_findIdx_eraseDups (parentKey? d) citations).filter _
  refine hplaces.imp_of_mem ?_
  intro a b ha hb hab
  have hka := ((mem_uncitedParents min d citations a).1 ha).1
  have hkb := ((mem_uncitedParents min d citations b).1 hb).1
  rwa [parentKey_beq_eq hka, parentKey_beq_eq hkb] at hab

theorem nodup_uncitedParents (min : Nat) (d : Database) (citations : List Text) :
    (uncitedParents min d citations).Nodup := by
  refine (pairwise_firstCiting_uncitedParents min d citations).imp ?_
  rintro a b hab rfl
  exact Nat.lt_irrefl _ hab

/-- In both orders, what is added is the same up to the order. -/
theorem addedParents_perm (options : Options) (d : Database) (citations : List Text) :
    (addedParents options d citations).Perm
      (uncitedParents options.minCrossrefs d citations) := by
  rw [addedParents]
  cases options.crossrefOrder with
  | sorted => exact List.mergeSort_perm _ _
  | firstReference => exact List.Perm.refl _

theorem mem_addedParents (options : Options) (d : Database) (citations : List Text) (p : Text) :
    p ∈ addedParents options d citations ↔
      p ∈ d.keys ∧ p.fold ∉ citations.map Text.fold ∧
        max options.minCrossrefs 1 ≤ citingCount d citations p := by
  rw [(addedParents_perm options d citations).mem_iff, mem_uncitedParents]

theorem nodup_addedParents (options : Options) (d : Database) (citations : List Text) :
    (addedParents options d citations).Nodup :=
  (addedParents_perm options d citations).nodup_iff.2 (nodup_uncitedParents _ d citations)

/-- No two keys that are added are spellings of one. -/
theorem pairwise_fold_ne_addedParents (options : Options) (d : Database) (citations : List Text) :
    (addedParents options d citations).Pairwise fun a b => a.fold ≠ b.fold := by
  refine (nodup_addedParents options d citations).imp_of_mem ?_
  intro a b ha hb hne heq
  exact hne (Database.eq_of_fold_eq_of_mem_keys ((mem_addedParents options d citations a).1 ha).1
    ((mem_addedParents options d citations b).1 hb).1 heq)

/-! ## The order of the entries that are added -/

theorem pairwise_le_addedParents {options : Options} (h : options.crossrefOrder = .sorted)
    (d : Database) (citations : List Text) :
    (addedParents options d citations).Pairwise fun a b => a.fold.le b.fold = true := by
  rw [addedParents, h]
  refine List.pairwise_mergeSort ?_ ?_ _
  · intro a b c
    exact Text.le_trans
  · intro a b
    rw [Bool.or_eq_true]
    exact Text.le_total a.fold b.fold

/-- The sorted order depends on the citations only up to their order. -/
theorem addedParents_eq_of_perm {options : Options} (h : options.crossrefOrder = .sorted)
    (d : Database) {citations other : List Text} (hperm : other.Perm citations) :
    addedParents options d other = addedParents options d citations := by
  have hmem : ∀ p, p ∈ addedParents options d other ↔ p ∈ addedParents options d citations := by
    intro p
    rw [mem_addedParents, mem_addedParents, (hperm.map Text.fold).mem_iff, citingCount,
      citingCount, hperm.countP_eq]
  refine List.Perm.eq_of_pairwise ?_ (pairwise_le_addedParents h d other)
    (pairwise_le_addedParents h d citations)
    ((List.perm_ext_iff_of_nodup (nodup_addedParents options d other)
      (nodup_addedParents options d citations)).2 hmem)
  intro a b ha hb hab hba
  exact Database.eq_of_fold_eq_of_mem_keys ((mem_addedParents options d other a).1 ha).1
    ((mem_addedParents options d citations b).1 hb).1 (Text.le_antisymm hab hba)

/-! ## The final citations -/

theorem nodup_map_fold_append_addedParents (options : Options) {d : Database}
    {citations : List Text} (hdistinct : (citations.map Text.fold).Nodup) :
    ((citations ++ addedParents options d citations).map Text.fold).Nodup := by
  rw [List.map_append]
  refine List.nodup_append.2 ⟨hdistinct, ?_, ?_⟩
  · rw [List.Nodup, List.pairwise_map]
    exact pairwise_fold_ne_addedParents options d citations
  · rintro folded hc other ho rfl
    obtain ⟨p, hp, rfl⟩ := List.mem_map.1 ho
    exact ((mem_addedParents options d citations p).1 hp).2.1 hc

theorem contains_of_mem_append_addedParents (options : Options) {d : Database}
    {citations : List Text} (hknown : ∀ c ∈ citations, d.contains c = true) :
    ∀ c ∈ citations ++ addedParents options d citations, d.contains c = true := by
  intro c hc
  rcases List.mem_append.1 hc with hc | hc
  · exact hknown c hc
  · exact Database.contains_of_mem_keys ((mem_addedParents options d citations c).1 hc).1

/-! ## References that lead nowhere -/

theorem mem_danglingCrossrefs (d : Database) (citations : List Text) (c target : Text) :
    (c, target) ∈ danglingCrossrefs d citations ↔
      c ∈ citations ∧ crossrefOf? d c = some target ∧ d.contains target = false := by
  rw [danglingCrossrefs, List.mem_filterMap]
  constructor
  · rintro ⟨key, hkey, h⟩
    split at h
    · next parent hparent =>
      cases hcontains : d.contains parent with
      | true => simp [hcontains] at h
      | false =>
        simp only [hcontains, Bool.false_eq_true, if_false, Option.some.injEq,
          Prod.mk.injEq] at h
        obtain ⟨rfl, rfl⟩ := h
        exact ⟨hkey, hparent, hcontains⟩
    · simp at h
  · rintro ⟨hc, htarget, hcontains⟩
    refine ⟨c, hc, ?_⟩
    simp [htarget, hcontains]

theorem danglingCrossrefs_sublist (d : Database) (citations : List Text) :
    ((danglingCrossrefs d citations).map Prod.fst).Sublist citations := by
  induction citations with
  | nil => simp [danglingCrossrefs]
  | cons c citations ih =>
    rw [danglingCrossrefs, List.filterMap_cons]
    split
    · exact ih.cons c
    · next p hp =>
      have hfst : p.1 = c := by
        split at hp
        · split at hp
          · simp at hp
          · rw [← Option.some.inj hp]
        · simp at hp
      rw [List.map_cons, hfst]
      exact ih.cons_cons c

/-! ## References that can be seen -/

/-- The cross reference of a citation can be seen if it leads to a citation. -/
theorem mem_seenCrossrefs {d : Database} {citations : List Text} {c : Text} (hc : c ∈ citations) :
    c.fold ∈ seenCrossrefs d citations ↔
      ∃ target, crossrefOf? d c = some target ∧ target.fold ∈ citations.map Text.fold := by
  rw [seenCrossrefs, List.mem_map]
  constructor
  · rintro ⟨other, hother, hfold⟩
    rw [List.mem_filter] at hother
    have hsame : crossrefOf? d other = crossrefOf? d c := by
      rw [crossrefOf?, crossrefOf?, d.entry?_congr hfold]
    rw [hsame] at hother
    cases htarget : crossrefOf? d c with
    | none => simp [htarget] at hother
    | some target =>
      rw [htarget, Option.map_some, Option.getD_some, List.contains_iff_mem] at hother
      exact ⟨target, rfl, hother.2⟩
  · rintro ⟨target, htarget, hmem⟩
    refine ⟨c, List.mem_filter.2 ⟨hc, ?_⟩, rfl⟩
    rw [htarget, Option.map_some, Option.getD_some, List.contains_iff_mem]
    exact hmem

/-- The key in a cross reference is the text of the field without the white space around it, if
something is left of it. -/
theorem crossref?_eq_some_iff (e : Entry) (target : Text) :
    e.crossref? = some target ↔
      ∃ raw, e.field? "crossref".toList = some raw ∧ raw.trim = target ∧ target ≠ [] := by
  rw [Entry.crossref?]
  cases e.field? "crossref".toList with
  | none => simp
  | some raw =>
    simp only [Option.map_some, Option.filter_eq_some_iff, Option.some.injEq, decide_eq_true_eq,
      exists_eq_left']

/-- The value of the cross reference of a citation, once the citations are settled: the text of the
field if its key is that of a citation, and a missing field if not. -/
theorem fieldValue_crossref {d : Database} {citations : List Text} {s : Scene} {c : Text}
    {e : Entry} (hd : s.data = d) (hv : s.visibleCrossrefs = seenCrossrefs d citations)
    (hcur : s.current = some c) (hc : c ∈ citations) (he : d.entry? c = some e) (m : Machine) :
    (∀ raw, e.field? "crossref".toList = some raw → raw.trim ≠ [] →
      raw.trim.fold ∈ citations.map Text.fold →
      Run.fieldValue "crossref".toList s m = .done (.string raw) m) ∧
    ((∀ raw, e.field? "crossref".toList = some raw → raw.trim ≠ [] →
      raw.trim.fold ∉ citations.map Text.fold) →
      Run.fieldValue "crossref".toList s m = .done (.missing "crossref".toList) m) := by
  subst hd
  have hseen : s.visibleCrossrefs.contains e.key.fold = true ↔
      ∃ target, e.crossref? = some target ∧ target.fold ∈ citations.map Text.fold := by
    have h := mem_seenCrossrefs (d := s.data) hc
    rw [crossrefOf?, he, Option.bind_some] at h
    rw [List.contains_iff_mem, hv, Database.fold_key_of_entry he, h]
  rw [Run.fieldValue_of_entry hcur he]
  constructor
  · intro raw hraw hblank hmem
    have hown := (crossref?_eq_some_iff e raw.trim).2 ⟨raw, hraw, rfl, hblank⟩
    have hvisible := hseen.2 ⟨raw.trim, hown, hmem⟩
    rw [if_neg (fun h => h.2 hvisible), Database.field, Entry.ownValue?, hraw]
    rfl
  · intro hnone
    have hvisible : ¬ s.visibleCrossrefs.contains e.key.fold = true := by
      rw [hseen]
      rintro ⟨target, htarget, hmem⟩
      obtain ⟨raw, hraw, rfl, hblank⟩ := (crossref?_eq_some_iff e target).1 htarget
      exact hnone raw hraw hblank hmem
    rw [if_pos ⟨rfl, hvisible⟩]

/-! ## Main statement -/

/-- What is added to the citations `citations` for their cross references: every entry that is not
cited and to which enough citations refer, once, in the order that the options ask for. -/
structure ParentsAdded (options : Options) (d : Database) (citations added : List Text) : Prop where
  mem_iff : ∀ p, p ∈ added ↔ p ∈ d.keys ∧ p.fold ∉ citations.map Text.fold ∧
    max options.minCrossrefs 1 ≤ citingCount d citations p
  nodup : added.Nodup
  sorted : options.crossrefOrder = .sorted →
    added.Pairwise fun a b => a.fold.le b.fold = true ∧ a.fold ≠ b.fold
  firstReference : options.crossrefOrder = .firstReference →
    added.Pairwise fun a b => firstCiting d citations a < firstCiting d citations b

theorem parentsAdded_addedParents (options : Options) (d : Database) (citations : List Text) :
    ParentsAdded options d citations (addedParents options d citations) where
  mem_iff := mem_addedParents options d citations
  nodup := nodup_addedParents options d citations
  sorted h := (pairwise_le_addedParents h d citations).and
    (pairwise_fold_ne_addedParents options d citations)
  firstReference h := by
    rw [addedParents, h]
    exact pairwise_firstCiting_uncitedParents options.minCrossrefs d citations

/-- **What cross references add to the citations.** Behind the citations stand the entries that are
not cited and to which at least `max min 1` citations refer; in the sorted order they do not depend
on the order of the citations. The result has no key in two spellings and only keys of entries,
and there is one warning for each citation whose cross reference leads to no entry. Afterwards
the cross reference of a citation reads as its text if it leads to a citation, and else as a missing
field. -/
theorem addedParents_eq_uncited_parents (options : Options) (d : Database) (citations : List Text)
    (hdistinct : (citations.map Text.fold).Nodup)
    (hknown : ∀ c ∈ citations, d.contains c = true) :
    ParentsAdded options d citations (addedParents options d citations) ∧
    (options.crossrefOrder = .sorted → ∀ other : List Text, other.Perm citations →
      addedParents options d other = addedParents options d citations) ∧
    ((citations ++ addedParents options d citations).map Text.fold).Nodup ∧
    (∀ c ∈ citations ++ addedParents options d citations, d.contains c = true) ∧
    (∀ c target, (c, target) ∈ danglingCrossrefs d citations ↔
      c ∈ citations ∧ crossrefOf? d c = some target ∧ d.contains target = false) ∧
    ((danglingCrossrefs d citations).map Prod.fst).Sublist citations ∧
    (∀ (i : Interpreter) (bibFiles : List Text) (span : SourceSpan),
      i.readSeen = false → i.options = options →
      (i.source.load bibFiles i.abbreviations).1 = .ok d →
      expandCitations d i.citations = citations →
      (i.read bibFiles span).2.citations = citations ++ addedParents options d citations ∧
      (i.read bibFiles span).2.machine.diagnostics = i.machine.diagnostics ++
        ((missingKeys d i.citations).map missingEntryWarning ++
          (danglingCrossrefs d citations).map fun p => badCrossrefWarning p.1 p.2) ∧
      ∀ c ∈ citations ++ addedParents options d citations, ∃ e, d.entry? c = some e ∧
        ∀ (fuel : Nat) (m : Machine), m.bindings.get? "crossref".toList = some .field →
          (∀ raw, e.field? "crossref".toList = some raw → raw.trim ≠ [] →
            raw.trim.fold ∈ (citations ++ addedParents options d citations).map Text.fold →
            runName (fuel + 1) "crossref".toList ((i.read bibFiles span).2.scene (some c)) m =
              .done () { m with stack := .string raw :: m.stack }) ∧
          ((∀ raw, e.field? "crossref".toList = some raw → raw.trim ≠ [] →
            raw.trim.fold ∉ (citations ++ addedParents options d citations).map Text.fold) →
            runName (fuel + 1) "crossref".toList ((i.read bibFiles span).2.scene (some c)) m =
              .done () { m with stack := .missing "crossref".toList :: m.stack })) := by
  have hfinal := contains_of_mem_append_addedParents options hknown
  refine ⟨parentsAdded_addedParents options d citations,
    fun h other hperm => addedParents_eq_of_perm h d hperm,
    nodup_map_fold_append_addedParents options hdistinct, hfinal,
    mem_danglingCrossrefs d citations, danglingCrossrefs_sublist d citations, ?_⟩
  rintro i bibFiles span hseen rfl hload rfl
  rw [read_of_load hseen hload]
  set after := ({ i with
    readSeen := true
    warnings := i.warnings ++ (i.source.load bibFiles i.abbreviations).2 } : Interpreter).settled d
  refine ⟨rfl, rfl, ?_⟩
  intro c hc
  obtain ⟨e, he⟩ := Option.isSome_iff_exists.1 (hfinal c hc)
  refine ⟨e, he, ?_⟩
  intro fuel m hb
  have hdata : (after.scene (some c)).data = d := rfl
  obtain ⟨hpresent, hmissing⟩ := fieldValue_crossref hdata rfl rfl hc he m
  constructor
  · intro raw hraw hblank hmem
    exact runName_of_field hb (hpresent raw hraw hblank hmem)
  · intro hnone
    exact runName_of_field hb (hmissing hnone)

/-- One reference adds the entry that it leads to, also when none is asked for. -/
theorem parentsAdded_sampleDatabase :
    ParentsAdded { minCrossrefs := 0 } sampleDatabase ["CHILD".toList] ["Parent".toList] := by
  have huncited : uncitedParents 0 sampleDatabase ["CHILD".toList] = ["Parent".toList] := by decide
  have hadded : addedParents { minCrossrefs := 0 } sampleDatabase ["CHILD".toList] =
      ["Parent".toList] := by
    rw [addedParents, huncited]
    exact List.mergeSort_singleton _
  have h := addedParents_eq_uncited_parents { minCrossrefs := 0 } sampleDatabase
    ["CHILD".toList] (by decide) (by decide)
  rw [hadded] at h
  exact h.1

end Bibliography.Style.Interpreter
