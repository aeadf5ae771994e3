import Bibliography.Files.Tree
import Bibliography.Proofs.Text.Words

set_option autoImplicit false

/-! # What writing a file changes

A path that can be written leads through directories to a place that holds no directory. Writing
puts a file there and leaves all other places as they are. So no directory is lost, the same path
leads to the same place afterwards, and what is read there is what was written.

Main statement: `exists_place_of_write`.
-/

namespace Bibliography.FileTree

/-! ## Nodes -/

theorem lookup_setNode (t : FileTree) (place other : FilePlace) (n : FileNode) :
    (t.setNode place n).lookup other = if other = place then some n else t.lookup other := by
  induction t with
  | nil =>
    by_cases h : other = place
    · simp [setNode, h]
    · simp [setNode, List.lookup_cons, beq_eq_false_iff_ne.2 h, h]
  | cons kv t ih =>
    obtain ⟨k, v⟩ := kv
    by_cases hk : k = place
    · subst hk
      by_cases h : other = k
      · simp [setNode, h]
      · simp [setNode, List.lookup_cons, beq_eq_false_iff_ne.2 h, h]
    · by_cases h : other = k
      · subst h
        simp [setNode, hk]
      · simp [setNode, hk, List.lookup_cons, beq_eq_false_iff_ne.2 h, ih]

theorem node?_setNode {t : FileTree} {place : FilePlace} (hplace : place.isGiven = false)
    (other : FilePlace) (n : FileNode) :
    (t.setNode place n).node? other = if other = place then some n else t.node? other := by
  by_cases h : other = place
  · subst h
    simp [node?, hplace, lookup_setNode]
  · simp [node?, lookup_setNode, h]

/-! ## Paths -/

/-- Names that lead to a directory lead there also in a tree with the same directories and more,
and from there on to the name that follows them. -/
theorem walk_concat {t t' : FileTree} {mustEnter : Bool} {place directory : FilePlace}
    {names : List Text} (h : walk t true place names = .ok directory)
    (hdirectories : ∀ q, t.node? q = some .directory → t'.node? q = some .directory)
    (name : Text) :
    walk t' mustEnter place (names ++ [name]) = walk t' mustEnter directory [name] := by
  induction names generalizing place with
  | nil =>
    cases h
    rfl
  | cons n names ih =>
    rw [walk] at h
    rw [List.cons_append, walk]
    split at h
    · cases h
    · next hshort =>
      rw [if_neg hshort]
      split at h
      · next hup =>
        rw [if_pos hup]
        exact ih h
      · next hup =>
        rw [if_neg hup]
        dsimp only at h
        split at h
        · next hnode =>
          simp only [hdirectories _ hnode]
          exact ih h
        · simp at h
        · simp at h

theorem ne_nil_of_checkPath {p : Path} (h : checkPath p = .ok ()) : p ≠ [] := by
  rintro rfl
  cases h

/-- The last part of a path that does not end in a slash is the last that is not empty. -/
theorem exists_of_last_part {p : Path} {name : Text} (hp : p ≠ []) (hslash : p.getLast? ≠ some '/')
    (hlast : ((p.splitWhere (· == '/')).filter (· ≠ [])).getLast? = some name) :
    ∃ names, p.splitWhere (· == '/') = names ++ [name] ∧ name ≠ [] := by
  obtain ⟨names, last, hparts⟩ : ∃ names last, p.splitWhere (· == '/') = names ++ [last] :=
    ⟨_, _, (List.dropLast_concat_getLast (Text.splitWhere_ne_nil _ p)).symm⟩
  have hne : last ≠ [] := by
    rintro rfl
    obtain rfl | ⟨c, hc, hslash'⟩ := Text.of_getLast?_splitWhere (p := (· == '/')) (s := p)
      (by rw [hparts]; simp)
    · exact hp rfl
    · rw [beq_iff_eq] at hslash'
      exact hslash (hslash' ▸ hc)
  rw [hparts, List.filter_append] at hlast
  simp only [List.filter_cons, hne, ne_eq, not_false_eq_true, decide_true, if_true,
    List.filter_nil, List.getLast?_concat, Option.some.injEq] at hlast
  exact ⟨names, hlast ▸ hparts, hlast ▸ hne⟩

/-- The names before the last one. -/
theorem filter_dropLast_parts {names : List Text} {name : Text} (h : name ≠ []) :
    ((names ++ [name]).filter (· ≠ [])).dropLast.filter (!Path.isVoid ·) =
      names.filter (!Path.isVoid ·) := by
  have hlast : [name].filter (· ≠ []) = [name] := by simp [h]
  rw [List.filter_append, hlast, List.dropLast_concat, List.filter_filter]
  refine List.filter_congr fun n _ => ?_
  by_cases hn : n = []
  · simp [hn, Path.isVoid]
  · simp [hn]

/-- What is known of a path that can be written. -/
theorem exists_of_placeForWriting {t : FileTree} {p : Path} {place : FilePlace}
    (h : t.placeForWriting p = .ok place) :
    ∃ names directory name, checkPath p = .ok () ∧
      p.splitWhere (· == '/') = names ++ [name] ∧ Path.isVoid name = false ∧ name ≠ ['.', '.'] ∧
      isTooLong name = false ∧
      walk t true (startOf p) (names.filter (!Path.isVoid ·)) = .ok directory ∧
      place = directory ++ [name] := by
  rw [placeForWriting] at h
  cases hcheck : checkPath p with
  | error e =>
    rw [hcheck] at h
    cases h
  | ok u =>
    rw [hcheck] at h
    dsimp only at h
    split at h
    · cases h
    · next directory hwalk =>
      split at h
      · cases h
      · next name hlast =>
        split at h
        · cases h
        · next hname =>
          split at h
          · cases h
          · next hshort =>
            cases h
            simp only [not_or] at hname
            obtain ⟨hdot, hup, hslash⟩ := hname
            obtain ⟨names, hnames, hne⟩ := exists_of_last_part (ne_nil_of_checkPath hcheck)
              hslash hlast
            rw [hnames, filter_dropLast_parts hne] at hwalk
            refine ⟨names, directory, name, rfl, hnames, ?_, hup, by simpa using hshort, hwalk, rfl⟩
            simpa [Path.isVoid, hdot] using hne

/-! ## Writing -/

/-- **What writing changes.** A file that was written holds the text and can be read by its path,
and everything else is as it was. -/
theorem exists_place_of_write {t t' : FileTree} {p : Path} {s : Text}
    (h : t.write p s = .ok t') :
    ∃ place, t.placeForWriting p = .ok place ∧ t'.node? place = some (.file s) ∧
      (∀ other, other ≠ place → t'.node? other = t.node? other) ∧ t'.read p = .ok s := by
  rw [write] at h
  split at h
  · cases h
  · next place hplace =>
    split at h
    · cases h
    · next hnode =>
      cases h
      have hgiven : place.isGiven = false := by
        cases hgiven : place.isGiven with
        | false => rfl
        | true => exact absurd (if_pos hgiven) hnode
      have hthere : (t.setNode place (.file s)).node? place = some (.file s) := by
        rw [node?_setNode hgiven, if_pos rfl]
      have hothers (other : FilePlace) (hother : other ≠ place) :
          (t.setNode place (.file s)).node? other = t.node? other := by
        rw [node?_setNode hgiven, if_neg hother]
      refine ⟨place, hplace, hthere, hothers, ?_⟩
      -- no directory was lost, so the path leads to the same place
      have hdirectories (q : FilePlace) (hq : t.node? q = some .directory) :
          (t.setNode place (.file s)).node? q = some .directory := by
        rw [hothers q fun heq => hnode (heq ▸ hq), hq]
      have hresolve : (t.setNode place (.file s)).resolve p = .ok place := by
        obtain ⟨names, directory, name, hcheck, hparts, hvoid, hup, hshort, hwalk, rfl⟩ :=
          exists_of_placeForWriting hplace
        have hnames : (names ++ [name]).filter (!Path.isVoid ·) =
            names.filter (!Path.isVoid ·) ++ [name] := by
          simp [List.filter_append, hvoid]
        have hlast : (((names ++ [name]).getLast?.map Path.isVoid).getD false) = false := by
          simp [hvoid]
        simp only [resolve, hcheck, hparts]
        rw [hnames, hlast, walk_concat hwalk hdirectories, walk, if_neg (by simp [hshort]),
          if_neg hup]
        simp [hthere]
      rw [read, find, hresolve]
      simp only [hthere]

end Bibliography.FileTree
