import Bibliography.Proofs.Citations.Crossrefs

set_option autoImplicit false

/-! # Databases that agree

A bibliography does not look at all of its database. The citations lead to their entries, these to
the entries that they refer to, and those, when they are added to the bibliography, to what they
refer to in turn (`relevantKeys`). Databases that agree on these keys (`AgreeFor`) cannot be told
apart when the citations are settled, as long as not all entries are asked for.

Main statement: `settled_of_agreeFor`.
-/

namespace Bibliography.Style.Interpreter

/-! ## Agreement -/

def targets (d : Database) (keys : List Text) : List Text := keys.filterMap (crossrefOf? d)

/-- The keys to which citations can lead: the citations, what they refer to, and what that refers
to. -/
def relevantKeys (d : Database) (citations : List Text) : List Text :=
  citations ++ targets d citations ++ targets d (targets d citations)

theorem mem_targets {d : Database} {keys : List Text} {target : Text} :
    target ∈ targets d keys ↔ ∃ key ∈ keys, crossrefOf? d key = some target :=
  List.mem_filterMap

theorem targets_subset (d : Database) {keys other : List Text} (h : other ⊆ keys) :
    targets d other ⊆ targets d keys := by
  intro target htarget
  obtain ⟨key, hkey, hcrossref⟩ := mem_targets.1 htarget
  exact mem_targets.2 ⟨key, h hkey, hcrossref⟩

/-- Fewer citations lead to fewer keys. -/
theorem relevantKeys_subset (d : Database) {citations other : List Text}
    (h : other ⊆ citations) : relevantKeys d other ⊆ relevantKeys d citations := by
  have htargets := targets_subset d h
  intro key hkey
  simp only [relevantKeys, List.mem_append] at hkey ⊢
  rcases hkey with (hkey | hkey) | hkey
  · exact Or.inl (Or.inl (h hkey))
  · exact Or.inl (Or.inr (htargets hkey))
  · exact Or.inr (targets_subset d htargets hkey)

/-- The databases have the same preamble and the same entries under the keys to which the citations
can lead. -/
structure AgreeFor (citations : List Text) (d d' : Database) : Prop where
  preamble : d.preamble.flatten = d'.preamble.flatten
  entry : ∀ key ∈ relevantKeys d citations, d.entry? key = d'.entry? key

instance (citations : List Text) (d d' : Database) : Decidable (AgreeFor citations d d') :=
  decidable_of_iff
    (d.preamble.flatten = d'.preamble.flatten ∧
      ∀ key ∈ relevantKeys d citations, d.entry? key = d'.entry? key)
    ⟨fun h => ⟨h.1, h.2⟩, fun h => ⟨h.preamble, h.entry⟩⟩

/-- The databases have the same entry under a key and under the key that this entry refers to. -/
structure AgreeOn (d d' : Database) (key : Text) : Prop where
  entry : d.entry? key = d'.entry? key
  parent : ∀ target, crossrefOf? d key = some target → d.entry? target = d'.entry? target

namespace AgreeOn

variable {d d' : Database} {key other : Text}

theorem refl (d : Database) (key : Text) : AgreeOn d d key := ⟨rfl, fun _ _ => rfl⟩

theorem crossrefOf_eq (h : AgreeOn d d' key) : crossrefOf? d key = crossrefOf? d' key := by
  rw [crossrefOf?, h.entry, crossrefOf?]

theorem contains_eq (h : AgreeOn d d' key) : d.contains key = d'.contains key := by
  rw [Database.contains, h.entry, Database.contains]

theorem parentKey_eq (h : AgreeOn d d' key) : parentKey? d key = parentKey? d' key := by
  rw [parentKey?, parentKey?, ← h.crossrefOf_eq]
  exact Option.bind_congr fun target htarget => by rw [h.parent target htarget]

/-- Agreement does not depend on the spelling of the key. -/
theorem of_fold_eq (h : AgreeOn d d' key) (hfold : other.fold = key.fold) :
    AgreeOn d d' other where
  entry := by rw [d.entry?_congr hfold, d'.entry?_congr hfold, h.entry]
  parent target htarget := by
    refine h.parent target ?_
    rwa [crossrefOf?, d.entry?_congr hfold] at htarget

end AgreeOn

namespace AgreeFor

variable {citations : List Text} {d d' : Database}

theorem mono (h : AgreeFor citations d d') {other : List Text} (hsub : other ⊆ citations) :
    AgreeFor other d d' where
  preamble := h.preamble
  entry key hkey := h.entry key (relevantKeys_subset d hsub hkey)

theorem on_cited (h : AgreeFor citations d d') {c : Text} (hc : c ∈ citations) :
    AgreeOn d d' c where
  entry := h.entry c (by simp [relevantKeys, hc])
  parent target htarget := by
    have hmem : target ∈ targets d citations := mem_targets.2 ⟨c, hc, htarget⟩
    exact h.entry target (by simp [relevantKeys, hmem])

theorem on_target (h : AgreeFor citations d d') {c target : Text} (hc : c ∈ citations)
    (htarget : crossrefOf? d c = some target) : AgreeOn d d' target where
  entry := (h.on_cited hc).parent target htarget
  parent other hother := by
    have hmem : target ∈ targets d citations := mem_targets.2 ⟨c, hc, htarget⟩
    have hmem' : other ∈ targets d (targets d citations) := mem_targets.2 ⟨target, hmem, hother⟩
    exact h.entry other (by simp [relevantKeys, hmem'])

/-- The databases agree on the entries that the citations refer to, under the keys that these
entries have themselves. -/
theorem on_parentKey (h : AgreeFor citations d d') {c key : Text} (hc : c ∈ citations)
    (hkey : parentKey? d c = some key) : AgreeOn d d' key := by
  obtain ⟨target, htarget, hkey⟩ := Option.bind_eq_some_iff.1 hkey
  obtain ⟨e, he, rfl⟩ := Option.map_eq_some_iff.1 hkey
  exact (h.on_target hc htarget).of_fold_eq (Database.fold_key_of_entry he)

/-- A database with more entries, at any places, agrees if the citations lead to none of them. -/
theorem of_subset (hpreamble : d.preamble.flatten = d'.preamble.flatten)
    (hsub : d.entries ⊆ d'.entries)
    (hnew : ∀ p ∈ d'.entries, p ∉ d.entries →
      ∀ key ∈ relevantKeys d citations, key.fold ≠ p.2.key.fold) :
    AgreeFor citations d d' where
  preamble := hpreamble
  entry key hkey := by
    cases he : d.entry? key with
    | some e =>
      have hmem : (key.fold, e) ∈ d'.entries := hsub (Table.mem_of_get?_eq_some he)
      exact (Table.get?_eq_some_of_mem d'.distinct hmem).symm
    | none =>
      cases he' : d'.entry? key with
      | none => rfl
      | some e =>
        -- such an entry would be new, and the citations lead to its key
        have hmem : (key.fold, e) ∈ d'.entries := Table.mem_of_get?_eq_some he'
        have hnot : (key.fold, e) ∉ d.entries := by
          intro h
          have heq : d.entry? key = some e := Table.get?_eq_some_of_mem d.distinct h
          rw [heq] at he
          cases he
        exact absurd (d'.keyed _ hmem) (hnew _ hmem hnot key hkey)

/-- The order of the entries does not matter. -/
theorem of_perm (citations : List Text) (hpreamble : d.preamble.flatten = d'.preamble.flatten)
    (hperm : d.entries.Perm d'.entries) : AgreeFor citations d d' :=
  of_subset hpreamble hperm.subset fun _ hmem hnot => absurd (hperm.mem_iff.2 hmem) hnot

/-! ## Settling the citations -/

/-- The requests are split in the same way. -/
theorem splitRequested_eq (h : ∀ key ∈ citations, d.contains key = d'.contains key)
    (seen : List Text) : splitRequested d seen citations = splitRequested d' seen citations := by
  induction citations generalizing seen with
  | nil => rfl
  | cons key keys ih =>
    have hkeys := fun other hother => h other (List.mem_cons_of_mem _ hother)
    rw [splitRequested, splitRequested, ih hkeys seen, ih hkeys (key.fold :: seen),
      h key List.mem_cons_self]

variable (h : AgreeFor citations d d')
include h

theorem knownKeys_eq : knownKeys d citations = knownKeys d' citations := by
  rw [knownKeys, knownKeys, splitRequested_eq fun key hkey => (h.on_cited hkey).contains_eq]

theorem missingKeys_eq : missingKeys d citations = missingKeys d' citations := by
  rw [missingKeys, missingKeys, splitRequested_eq fun key hkey => (h.on_cited hkey).contains_eq]

/-- Unless all entries are asked for, only the requested keys are looked up. -/
theorem expandCitations_eq (hw : wildcard ∉ citations) :
    expandCitations d citations = expandCitations d' citations := by
  rw [Interpreter.expandCitations_eq, Interpreter.expandCitations_eq, if_neg hw, if_neg hw,
    h.knownKeys_eq]

theorem danglingCrossrefs_eq : danglingCrossrefs d citations = danglingCrossrefs d' citations := by
  refine List.filterMap_congr fun c hc => ?_
  rw [← (h.on_cited hc).crossrefOf_eq]
  cases hcrossref : crossrefOf? d c with
  | none => rfl
  | some target => simp only [(h.on_target hc hcrossref).contains_eq]

theorem referencedKeys_eq : referencedKeys d citations = referencedKeys d' citations :=
  List.filterMap_congr fun _ hc => (h.on_cited hc).parentKey_eq

theorem addedParents_eq (options : Options) :
    addedParents options d citations = addedParents options d' citations := by
  rw [addedParents, addedParents, uncitedParents, uncitedParents, h.referencedKeys_eq]

/-- The databases agree on the citations and on what cross references add to them. -/
theorem on_final (options : Options) {c : Text}
    (hc : c ∈ citations ++ addedParents options d citations) : AgreeOn d d' c := by
  rcases List.mem_append.1 hc with hc | hc
  · exact h.on_cited hc
  · -- an entry is added because some citation refers to it
    obtain ⟨hkey, -, hcount⟩ := (mem_addedParents options d citations c).1 hc
    have hpos : 0 < citingCount d citations c := by omega
    obtain ⟨citing, hciting, hrefers⟩ := List.countP_pos_iff.1 hpos
    rw [decide_eq_true_eq] at hrefers
    exact h.on_parentKey hciting ((parentKey?_eq_some_iff hkey citing).2 hrefers)

theorem seenCrossrefs_eq (options : Options) :
    seenCrossrefs d (citations ++ addedParents options d citations) =
      seenCrossrefs d' (citations ++ addedParents options d citations) := by
  rw [seenCrossrefs, seenCrossrefs]
  congr 1
  refine List.filter_congr fun c hc => ?_
  rw [(h.on_final options hc).crossrefOf_eq]

end AgreeFor

/-- **Databases that agree settle the citations in the same way**: only the database itself is
another one, and perhaps the source that it came from. -/
theorem settled_of_agreeFor {i : Interpreter} {d d' : Database} (h : AgreeFor i.citations d d')
    (hw : wildcard ∉ i.citations) (source : Source) :
    ({ i with source := source } : Interpreter).settled d' =
      { i.settled d with source := source, data := d' } := by
  have hcited := h.mono fun c hc => mem_of_mem_expandCitations (d := d) hw hc
  rw [settled, settled]
  simp only [← h.expandCitations_eq hw, ← h.missingKeys_eq, ← hcited.addedParents_eq,
    ← hcited.danglingCrossrefs_eq, ← hcited.seenCrossrefs_eq]

/-- The databases agree on all citations once these are settled. -/
theorem agreeOn_of_mem_settled {i : Interpreter} {d d' : Database}
    (h : AgreeFor i.citations d d') (hw : wildcard ∉ i.citations) {c : Text}
    (hc : c ∈ (i.settled d).citations) : AgreeOn d d' c :=
  (h.mono fun _ hc => mem_of_mem_expandCitations hw hc).on_final i.options hc

end Bibliography.Style.Interpreter
