import Bibliography.Style.Interpreter
import Mathlib.Data.List.Nodup

set_option autoImplicit false

/-! # What is cited

Reading the database settles which entries are cited. The requested keys may name one entry several
times and in several spellings, may name none, and may ask for all entries with a `*` at any place.
The function that settles this (`expandCitations`) walks through the requests with a list of the
folded keys that it has met; the description used here has no such list. A request counts if it is
the *first* for its folded key (`IsFirstRequest`), and a list `RequestsWith` a property holds the
first requests that have it, in their order.

Main statement: `expandCitations_eq_known_append_rest`.
-/

namespace Bibliography.Style.Interpreter

/-! ## First requests -/

/-- `key` asks for an entry, and no request before it asks for the same one. -/
def IsFirstRequest (requested : List Text) (key : Text) : Prop :=
  key ≠ wildcard ∧ ∃ before after, requested = before ++ key :: after ∧
    ∀ other ∈ before, other ≠ wildcard → other.fold ≠ key.fold

/-- `keys` are the first requests that satisfy `p`, in the order and spelling of the requests. -/
structure RequestsWith (p : Text → Prop) (requested keys : List Text) : Prop where
  mem_iff : ∀ key, key ∈ keys ↔ IsFirstRequest requested key ∧ p key
  ordered : keys.Pairwise fun a b => requested.idxOf a < requested.idxOf b
  distinct : (keys.map Text.fold).Nodup
  complete : ∀ key ∈ requested, key ≠ wildcard → p key → key.fold ∈ keys.map Text.fold

/-- The requests that are the first for their folded key, of those whose folded key is not among
`seen`. -/
def firstRequests (seen : List Text) : List Text → List Text
  | [] => []
  | key :: keys =>
    if key = wildcard ∨ seen.contains key.fold then firstRequests seen keys
    else key :: firstRequests (key.fold :: seen) keys

theorem isFirstRequest_cons (key k : Text) (ks : List Text) :
    IsFirstRequest (k :: ks) key ↔
      (key = k ∧ k ≠ wildcard) ∨
        (IsFirstRequest ks key ∧ (k ≠ wildcard → k.fold ≠ key.fold)) := by
  constructor
  · rintro ⟨hw, before, after, heq, hfirst⟩
    rcases before with _ | ⟨b, before⟩
    · obtain ⟨rfl, -⟩ := List.cons.inj heq
      exact Or.inl ⟨rfl, hw⟩
    · obtain ⟨rfl, hks⟩ := List.cons.inj heq
      refine Or.inr ⟨⟨hw, before, after, hks, ?_⟩, hfirst k (by simp)⟩
      intro other ho
      exact hfirst other (List.mem_cons_of_mem _ ho)
  · rintro (⟨rfl, hw⟩ | ⟨⟨hw, before, after, rfl, hfirst⟩, hk⟩)
    · exact ⟨hw, [], ks, rfl, by simp⟩
    · refine ⟨hw, k :: before, after, rfl, ?_⟩
      intro other ho
      rcases List.mem_cons.1 ho with rfl | ho
      · exact hk
      · exact hfirst other ho

theorem mem_firstRequests (seen requested : List Text) (key : Text) :
    key ∈ firstRequests seen requested ↔ key.fold ∉ seen ∧ IsFirstRequest requested key := by
  induction requested generalizing seen with
  | nil => simp [firstRequests, IsFirstRequest]
  | cons k ks ih =>
    rw [isFirstRequest_cons]
    by_cases hk : k = wildcard ∨ seen.contains k.fold
    · rw [firstRequests, if_pos hk, ih]
      rw [List.contains_iff_mem] at hk
      grind
    · rw [firstRequests, if_neg hk, List.mem_cons, ih, List.mem_cons]
      rw [List.contains_iff_mem] at hk
      grind

/-- A request that is skipped is none of the requests that stay. -/
theorem ne_of_mem_firstRequests {seen requested : List Text} {key k : Text}
    (hk : k = wildcard ∨ k.fold ∈ seen) (h : key ∈ firstRequests seen requested) : k ≠ key := by
  rintro rfl
  obtain ⟨hseen, hw, -⟩ := (mem_firstRequests seen requested k).1 h
  exact hk.elim hw hseen

theorem pairwise_idxOf_firstRequests (seen requested : List Text) :
    (firstRequests seen requested).Pairwise fun a b => requested.idxOf a < requested.idxOf b := by
  induction requested generalizing seen with
  | nil => simp [firstRequests]
  | cons k ks ih =>
    -- behind the head, every index is one more than it is in the tail
    have hshift : ∀ {seen'}, (k = wildcard ∨ k.fold ∈ seen') →
        (firstRequests seen' ks).Pairwise fun a b => (k :: ks).idxOf a < (k :: ks).idxOf b := by
      intro seen' hk
      refine (ih seen').imp_of_mem ?_
      intro a b ha hb hab
      rw [List.idxOf_cons_ne _ (ne_of_mem_firstRequests hk ha),
        List.idxOf_cons_ne _ (ne_of_mem_firstRequests hk hb)]
      omega
    by_cases hk : k = wildcard ∨ seen.contains k.fold
    · rw [firstRequests, if_pos hk]
      rw [List.contains_iff_mem] at hk
      exact hshift hk
    · rw [firstRequests, if_neg hk, List.pairwise_cons]
      refine ⟨fun a ha => ?_, hshift (Or.inr (by simp))⟩
      rw [List.idxOf_cons_self, List.idxOf_cons_ne _ (ne_of_mem_firstRequests (by simp) ha)]
      omega

theorem pairwise_fold_firstRequests (seen requested : List Text) :
    (firstRequests seen requested).Pairwise fun a b => a.fold ≠ b.fold := by
  induction requested generalizing seen with
  | nil => simp [firstRequests]
  | cons k ks ih =>
    rw [firstRequests]
    split
    · exact ih seen
    · rw [List.pairwise_cons]
      refine ⟨fun a ha => ?_, ih _⟩
      obtain ⟨hseen, -⟩ := (mem_firstRequests _ ks a).1 ha
      rw [List.mem_cons, not_or] at hseen
      exact Ne.symm hseen.1

theorem fold_mem_map_firstRequests {seen requested : List Text} {key : Text}
    (hmem : key ∈ requested) (hw : key ≠ wildcard) (hseen : key.fold ∉ seen) :
    ∃ first ∈ firstRequests seen requested, first.fold = key.fold := by
  induction requested generalizing seen with
  | nil => simp at hmem
  | cons k ks ih =>
    by_cases hk : k = wildcard ∨ seen.contains k.fold
    · rw [firstRequests, if_pos hk]
      rw [List.contains_iff_mem] at hk
      have hne : key ≠ k := by
        rintro rfl
        exact hk.elim hw hseen
      exact ih ((List.mem_cons.1 hmem).resolve_left hne) hseen
    · rw [firstRequests, if_neg hk]
      by_cases hfold : key.fold = k.fold
      · exact ⟨k, by simp, hfold.symm⟩
      · have hne : key ≠ k := fun h => hfold (h ▸ rfl)
        have hseen' : key.fold ∉ k.fold :: seen := by simp [hfold, hseen]
        obtain ⟨first, hf, heq⟩ := ih ((List.mem_cons.1 hmem).resolve_left hne) hseen'
        exact ⟨first, List.mem_cons_of_mem _ hf, heq⟩

/-- Requests for all entries are no first requests, wherever they stand. -/
theorem firstRequests_filter (seen requested : List Text) :
    firstRequests seen (requested.filter (· ≠ wildcard)) = firstRequests seen requested := by
  induction requested generalizing seen with
  | nil => rfl
  | cons k ks ih =>
    by_cases hw : k = wildcard
    · rw [List.filter_cons_of_neg (by simp [hw]), ih, firstRequests, if_pos (Or.inl hw)]
    · rw [List.filter_cons_of_pos (by simp [hw]), firstRequests, firstRequests, ih, ih]

/-- The first requests with a property that does not look at the spelling. -/
theorem requestsWith_filter {p : Text → Bool} (hp : ∀ a b : Text, a.fold = b.fold → p a = p b)
    (requested : List Text) :
    RequestsWith (fun key => p key = true) requested
      ((firstRequests [] requested).filter p) where
  mem_iff key := by
    rw [List.mem_filter, mem_firstRequests]
    simp
  ordered := (pairwise_idxOf_firstRequests [] requested).filter _
  distinct := by
    rw [List.Nodup, List.pairwise_map]
    exact (pairwise_fold_firstRequests [] requested).filter _
  complete key hmem hw hkey := by
    have hseen : key.fold ∉ ([] : List Text) := by simp
    obtain ⟨first, hf, heq⟩ := fold_mem_map_firstRequests hmem hw hseen
    have hpf : p first = true := by rw [hp first key heq, hkey]
    exact List.mem_map.2 ⟨first, List.mem_filter.2 ⟨hf, hpf⟩, heq⟩

/-! ## Known and missing keys -/

theorem splitRequested_eq (d : Database) (seen requested : List Text) :
    splitRequested d seen requested =
      ((firstRequests seen requested).filter (d.contains ·),
        (firstRequests seen requested).filter (!d.contains ·)) := by
  induction requested generalizing seen with
  | nil => rfl
  | cons k ks ih =>
    rw [splitRequested, firstRequests]
    split
    · exact ih seen
    · rw [ih (k.fold :: seen)]
      cases hk : d.contains k <;> simp [hk]

theorem knownKeys_eq (d : Database) (requested : List Text) :
    knownKeys d requested = (firstRequests [] requested).filter (d.contains ·) := by
  rw [knownKeys, splitRequested_eq]

theorem missingKeys_eq (d : Database) (requested : List Text) :
    missingKeys d requested = (firstRequests [] requested).filter (!d.contains ·) := by
  rw [missingKeys, splitRequested_eq]

theorem requestsWith_knownKeys (d : Database) (requested : List Text) :
    RequestsWith (fun key => d.contains key = true) requested (knownKeys d requested) := by
  rw [knownKeys_eq]
  exact requestsWith_filter (fun a b h => d.contains_congr h) requested

theorem requestsWith_missingKeys (d : Database) (requested : List Text) :
    RequestsWith (fun key => d.contains key = false) requested (missingKeys d requested) := by
  rw [missingKeys_eq]
  have h := requestsWith_filter (p := fun key => !d.contains key)
    (fun a b h => by rw [d.contains_congr h]) requested
  simpa using h

/-- Known and missing keys are found among the requests without those for all entries. -/
theorem splitRequested_congr (d : Database) {requested other : List Text}
    (h : other.filter (· ≠ wildcard) = requested.filter (· ≠ wildcard)) :
    knownKeys d other = knownKeys d requested ∧ missingKeys d other = missingKeys d requested := by
  have hfirst : firstRequests [] other = firstRequests [] requested := by
    rw [← firstRequests_filter, h, firstRequests_filter]
  rw [knownKeys_eq, knownKeys_eq, missingKeys_eq, missingKeys_eq, hfirst]
  exact ⟨rfl, rfl⟩

/-! ## The citations -/

/-- The keys of the database of which no spelling is in a list, in the order of the database. -/
def otherKeys (d : Database) (keys : List Text) : List Text :=
  d.keys.filter fun key => !(keys.map Text.fold).contains key.fold

theorem mem_otherKeys (d : Database) (keys : List Text) (key : Text) :
    key ∈ otherKeys d keys ↔ key ∈ d.keys ∧ key.fold ∉ keys.map Text.fold := by
  rw [otherKeys, List.mem_filter]
  simp

theorem expandCitations_eq (d : Database) (requested : List Text) :
    expandCitations d requested = knownKeys d requested ++
      if wildcard ∈ requested then otherKeys d (knownKeys d requested) else [] := by
  rw [expandCitations, otherKeys]
  simp

theorem contains_of_mem_expandCitations {d : Database} {requested : List Text} {key : Text}
    (h : key ∈ expandCitations d requested) : d.contains key = true := by
  rw [expandCitations_eq, List.mem_append] at h
  rcases h with h | h
  · exact (((requestsWith_knownKeys d requested).mem_iff key).1 h).2
  · split at h
    · exact Database.contains_of_mem_keys ((mem_otherKeys d _ key).1 h).1
    · simp at h

/-- Unless all entries are requested, only requested keys are cited. -/
theorem mem_of_mem_expandCitations {d : Database} {requested : List Text} {key : Text}
    (hw : wildcard ∉ requested) (h : key ∈ expandCitations d requested) : key ∈ requested := by
  rw [expandCitations_eq, if_neg hw, List.append_nil] at h
  obtain ⟨⟨-, before, after, heq, -⟩, -⟩ := ((requestsWith_knownKeys d requested).mem_iff key).1 h
  rw [heq]
  exact List.mem_append_right _ List.mem_cons_self

theorem nodup_map_fold_expandCitations (d : Database) (requested : List Text) :
    ((expandCitations d requested).map Text.fold).Nodup := by
  rw [expandCitations_eq]
  have hknown := (requestsWith_knownKeys d requested).distinct
  split
  · rw [List.map_append]
    have hother : ((otherKeys d (knownKeys d requested)).map Text.fold).Nodup :=
      d.nodup_map_fold_keys.sublist (List.filter_sublist.map Text.fold)
    refine List.nodup_append.2 ⟨hknown, hother, ?_⟩
    rintro folded hk other ho rfl
    obtain ⟨key, hkey, rfl⟩ := List.mem_map.1 ho
    exact ((mem_otherKeys d _ key).1 hkey).2 hk
  · simpa using hknown

/-- With a request for all entries, the citations are the entries of the database. -/
theorem mem_map_fold_expandCitations_of_wildcard {d : Database} {requested : List Text}
    (hw : wildcard ∈ requested) (folded : Text) :
    folded ∈ (expandCitations d requested).map Text.fold ↔ folded ∈ d.keys.map Text.fold := by
  constructor
  · intro h
    obtain ⟨key, hkey, rfl⟩ := List.mem_map.1 h
    exact (d.contains_iff_mem_map_fold_keys key).1 (contains_of_mem_expandCitations hkey)
  · intro h
    obtain ⟨key, hkey, rfl⟩ := List.mem_map.1 h
    rw [expandCitations_eq, if_pos hw, List.map_append, List.mem_append]
    by_cases hk : key.fold ∈ (knownKeys d requested).map Text.fold
    · exact Or.inl hk
    · exact Or.inr (List.mem_map_of_mem ((mem_otherKeys d _ key).2 ⟨hkey, hk⟩))

/-! ## Reading -/

/-- What reading does when the entries can be loaded. -/
theorem read_of_load {i : Interpreter} {bibFiles : List Text} {d : Database}
    (hseen : i.readSeen = false)
    (hload : (i.source.load bibFiles i.abbreviations).1 = .ok d) (span : SourceSpan) :
    i.read bibFiles span = (.ok (), { i with
      readSeen := true
      warnings := i.warnings ++ (i.source.load bibFiles i.abbreviations).2 }.settled d) := by
  rw [read, if_neg (by simp [hseen])]
  simp only [hload]

/-- **What is cited after reading.** The citations are the known requests, each once, in the order
and spelling of the first request, and behind them, if all entries are requested, the other entries
in the order of the database. Where all entries are requested does not matter, and there is one
warning for each missing key. -/
theorem expandCitations_eq_known_append_rest (d : Database) (requested : List Text) :
    ((expandCitations d requested).map Text.fold).Nodup ∧
    (∀ key ∈ expandCitations d requested, d.contains key = true) ∧
    (∃ known rest, expandCitations d requested = known ++ rest ∧
      RequestsWith (fun key => d.contains key = true) requested known ∧
      (wildcard ∈ requested → rest = otherKeys d known ∧
        ∀ folded, folded ∈ (expandCitations d requested).map Text.fold ↔
          folded ∈ d.keys.map Text.fold) ∧
      (wildcard ∉ requested → rest = [])) ∧
    (∀ other : List Text,
      other.filter (· ≠ wildcard) = requested.filter (· ≠ wildcard) →
      (wildcard ∈ other ↔ wildcard ∈ requested) →
      expandCitations d other = expandCitations d requested ∧
        missingKeys d other = missingKeys d requested) ∧
    RequestsWith (fun key => d.contains key = false) requested (missingKeys d requested) ∧
    (∀ (i : Interpreter) (bibFiles : List Text) (span : SourceSpan), i.readSeen = false →
      i.citations = requested →
      (i.source.load bibFiles i.abbreviations).1 = .ok d →
      (i.read bibFiles span).1 = .ok () ∧
      (i.read bibFiles span).2.citations = expandCitations d requested ++
        addedParents i.options d (expandCitations d requested) ∧
      (i.read bibFiles span).2.machine.diagnostics = i.machine.diagnostics ++
        ((missingKeys d requested).map missingEntryWarning ++
          (danglingCrossrefs d (expandCitations d requested)).map
            fun p => badCrossrefWarning p.1 p.2)) := by
  refine ⟨nodup_map_fold_expandCitations d requested, fun key => contains_of_mem_expandCitations,
    ⟨knownKeys d requested, _, expandCitations_eq d requested, requestsWith_knownKeys d requested,
      ?_, ?_⟩, ?_, requestsWith_missingKeys d requested, ?_⟩
  · intro hw
    exact ⟨if_pos hw, mem_map_fold_expandCitations_of_wildcard hw⟩
  · intro hw
    exact if_neg hw
  · intro other hfilter hw
    obtain ⟨hknown, hmissing⟩ := splitRequested_congr d hfilter
    refine ⟨?_, hmissing⟩
    rw [expandCitations_eq, expandCitations_eq, hknown]
    simp only [hw]
  · rintro i bibFiles span hseen rfl hload
    rw [read_of_load hseen hload]
    exact ⟨rfl, rfl, rfl⟩

/-- A database in which one entry refers to another, in another spelling and between blanks. -/
def sampleDatabase : Database where
  entries :=
    [("child".toList,
        { key := "Child".toList
          kind := "inbook".toList
          fields := [("crossref".toList, " PARENT ".toList)] }),
      ("parent".toList, { key := "Parent".toList, kind := "book".toList })]
  keyed := by decide
  distinct := by decide

/-- Repeated and missing keys, and all entries in between. -/
theorem expandCitations_sampleDatabase :
    expandCitations sampleDatabase
        ["CHILD".toList, wildcard, "nobody".toList, "child".toList, "NOBODY".toList] =
      ["CHILD".toList, "Parent".toList] ∧
    expandCitations sampleDatabase
        [wildcard, "CHILD".toList, "nobody".toList, wildcard, "child".toList, "NOBODY".toList] =
      ["CHILD".toList, "Parent".toList] := by
  have h := expandCitations_eq_known_append_rest sampleDatabase
    ["CHILD".toList, wildcard, "nobody".toList, "child".toList, "NOBODY".toList]
  have hexpand : expandCitations sampleDatabase
      ["CHILD".toList, wildcard, "nobody".toList, "child".toList, "NOBODY".toList] =
    ["CHILD".toList, "Parent".toList] := by decide
  refine ⟨hexpand, ?_⟩
  rw [← hexpand]
  exact (h.2.2.2.1 _ (by decide) (by decide)).1

end Bibliography.Style.Interpreter
