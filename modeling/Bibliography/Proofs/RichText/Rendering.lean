import Bibliography.Proofs.Text.Words
import Bibliography.RichText.Markup

set_option autoImplicit false

/-! # Rendered trees

Names are printed as trees, and whether a tie or the text around a word is printed depends on
whether there is something to print. Trees are only built with constructors that leave out what is
nothing (`Built`). So in a tree that is not nothing itself no part is hollow, and in a markup in
which characters, symbols and spans can be seen it is written as some text. What is left out is
written as nothing, so rows are written as one part after the other, and a text as itself.

Main statement: `RichText.rendering_of_built`.
-/

namespace Bibliography

namespace RichText

variable {m : Markup} {t : RichText} {ts : List RichText}

/-! ## Trees that are built -/

/-- The trees that the constructors make, from nothing and symbols on. -/
inductive Built : RichText → Prop
  | null : Built .null
  | symbol (s : Symbol) : Built (.symbol s)
  | literal (s : Text) : Built (literal s)
  | tagged (tag : Text) {ts : List RichText} (h : ∀ t ∈ ts, Built t) : Built (tagged tag ts)
  | seq {ts : List RichText} (h : ∀ t ∈ ts, Built t) : Built (seq ts)

/-- Nothing, a literal without characters, and a span or row without parts. -/
def isHollow : RichText → Bool
  | .lit s => s.isEmpty
  | .symbol _ => false
  | .span _ children => children.isEmpty
  | .row children => children.isEmpty
  | .null => true

mutual

/-- The tree with all trees in it. -/
def nodes : RichText → List RichText
  | .lit s => [.lit s]
  | .symbol s => [.symbol s]
  | .span tag children => .span tag children :: nodesAll children
  | .row children => .row children :: nodesAll children
  | .null => [.null]

def nodesAll : List RichText → List RichText
  | [] => []
  | t :: ts => nodes t ++ nodesAll ts

end

theorem mem_intersperse {separator t : RichText} {parts : List RichText}
    (h : t ∈ intersperse separator parts) : t = separator ∨ t ∈ parts := by
  fun_induction intersperse separator parts with
  | case1 => cases h
  | case2 part => exact Or.inr h
  | case3 part parts hne ih =>
    simp only [List.mem_cons] at h ⊢
    rcases h with rfl | rfl | h
    · exact Or.inr (Or.inl rfl)
    · exact Or.inl rfl
    · exact (ih h).imp_right Or.inr

theorem Built.ofTex (s : Text) : (ofTex s).Built := by
  refine .seq fun t ht => ?_
  rcases mem_intersperse ht with rfl | ht
  · exact .symbol .nbsp
  · obtain ⟨part, -, rfl⟩ := List.mem_map.1 ht
    exact .literal part

/-! ## What is left out -/

/-- A node made of the trees in a row that are something, if there are any. -/
def gather (node : List RichText → RichText) (ts : List RichText) : RichText :=
  match ts.filter (!·.isNull) with
  | [] => .null
  | kept => node kept

theorem seq_eq_gather (ts : List RichText) : seq ts = gather .row ts := rfl

theorem tagged_eq_gather (tag : Text) (ts : List RichText) :
    tagged tag ts = gather (.span tag) ts := rfl

theorem gather_eq_null_or (node : List RichText → RichText) (ts : List RichText) :
    (∀ t ∈ ts, t.isNull = true) ∧ gather node ts = .null ∨
      (∃ t ∈ ts, t.isNull = false) ∧ gather node ts = node (ts.filter (!·.isNull)) := by
  rw [gather]
  split
  · next h => exact .inl ⟨by simpa using h, rfl⟩
  · next h => exact .inr ⟨by simpa using h, rfl⟩

/-- The tree is nothing, or no part of it is hollow. -/
def Solid (t : RichText) : Prop := t = .null ∨ ∀ u ∈ t.nodes, u.isHollow = false

theorem nodesAll_eq (ts : List RichText) : nodesAll ts = ts.flatMap nodes := by
  induction ts with
  | nil => rfl
  | cons t ts ih => rw [nodesAll, ih, List.flatMap_cons]

/-- Where something is kept of solid trees, it is not hollow. -/
theorem isHollow_of_mem_nodesAll_filter (h : ∀ t ∈ ts, t.Solid) {u : RichText}
    (hu : u ∈ nodesAll (ts.filter (!·.isNull))) : u.isHollow = false := by
  rw [nodesAll_eq] at hu
  obtain ⟨t, ht, hu⟩ := List.mem_flatMap.1 hu
  obtain ⟨ht, hkept⟩ := List.mem_filter.1 ht
  rcases h t ht with rfl | hsolid
  · cases hkept
  · exact hsolid u hu

theorem isEmpty_filter_isNull (h : ∃ t ∈ ts, t.isNull = false) :
    (ts.filter (!·.isNull)).isEmpty = false := by
  obtain ⟨t, ht, hkept⟩ := h
  have hmem : t ∈ ts.filter (!·.isNull) := List.mem_filter.2 ⟨ht, by rw [hkept]; rfl⟩
  exact List.isEmpty_eq_false_iff.2 (List.ne_nil_of_mem hmem)

/-- A node that is hollow only without children is solid when it is made of solid trees. -/
theorem solid_gather {node : List RichText → RichText}
    (hnodes : ∀ ts, (node ts).nodes = node ts :: nodesAll ts)
    (hhollow : ∀ ts, (node ts).isHollow = ts.isEmpty) (h : ∀ t ∈ ts, t.Solid) :
    (gather node ts).Solid := by
  rcases gather_eq_null_or node ts with ⟨-, heq⟩ | ⟨hkept, heq⟩
  · exact .inl heq
  · rw [heq, Solid, hnodes]
    exact .inr (List.forall_mem_cons.2
      ⟨(hhollow _).trans (isEmpty_filter_isNull hkept), fun _ => isHollow_of_mem_nodesAll_filter h⟩)

/-- **In a tree that is built no part is hollow.** -/
theorem Built.solid (h : t.Built) : t.Solid := by
  induction h with
  | null => exact .inl rfl
  | symbol s => exact .inr (List.forall_mem_singleton.2 rfl)
  | literal s =>
    rw [RichText.literal]
    split
    · exact .inl rfl
    · next hs => exact .inr (List.forall_mem_singleton.2 (List.isEmpty_eq_false_iff.2 hs))
  | tagged tag _ ih => exact solid_gather (fun _ => rfl) (fun _ => rfl) ih
  | seq _ ih => exact solid_gather (fun _ => rfl) (fun _ => rfl) ih

/-! ## Rendering -/

theorem renderAll_eq (m : Markup) (ts : List RichText) :
    renderAll m ts = ts.flatMap (render m) := by
  induction ts with
  | nil => rfl
  | cons t ts ih => rw [renderAll, ih, List.flatMap_cons]

theorem render_literal (m : Markup) (s : Text) : (literal s).render m = s.flatMap m.escape := by
  rw [literal]
  split
  · next hs => rw [hs]; rfl
  · rfl

/-- What is nothing is written as nothing. -/
theorem render_of_isNull (h : t.isNull = true) : t.render m = [] := by
  cases t with
  | null => rfl
  | lit _ | symbol _ | span _ _ | row _ => cases h

theorem flatMap_render_filter (m : Markup) (ts : List RichText) :
    (ts.filter (!·.isNull)).flatMap (render m) = ts.flatMap (render m) := by
  induction ts with
  | nil => rfl
  | cons t ts ih =>
    rw [List.filter_cons, List.flatMap_cons]
    cases hnull : t.isNull with
    | true => rw [render_of_isNull hnull]; exact ih
    | false => exact congrArg (t.render m ++ ·) ih

/-- **A row is written as one part after the other.** -/
theorem render_seq (m : Markup) (ts : List RichText) :
    (seq ts).render m = ts.flatMap (render m) := by
  rw [seq_eq_gather]
  rcases gather_eq_null_or .row ts with ⟨hnull, heq⟩ | ⟨-, heq⟩
  · rw [heq, render, eq_comm, List.flatMap_eq_nil_iff]
    exact fun t ht => render_of_isNull (hnull t ht)
  · rw [heq, render, renderAll_eq, flatMap_render_filter]

theorem render_intersperse (m : Markup) (separator : RichText) (parts : List RichText) :
    (intersperse separator parts).flatMap (render m) =
      Text.join (separator.render m) (parts.map (render m)) := by
  fun_induction intersperse separator parts with
  | case1 => rfl
  | case2 part => exact List.append_nil _
  | case3 part parts hne ih =>
    obtain ⟨next, parts, rfl⟩ := List.exists_cons_of_ne_nil hne
    rw [List.flatMap_cons, List.flatMap_cons, ih, ← List.append_assoc]
    rfl

/-- A text is written character by character, with ties as the markup has them. -/
theorem render_ofTex (m : Markup) (s : Text) :
    (ofTex s).render m = s.flatMap fun c => if c = '~' then m.symbol .nbsp else m.escape c := by
  have hparts : ∀ parts : List Text,
      (parts.map literal).map (render m) = parts.map (List.flatMap m.escape) := by
    intro parts
    rw [List.map_map]
    exact List.map_congr_left fun part _ => render_literal m part
  rw [ofTex, render_seq, render_intersperse, hparts]
  exact Text.join_splitWhere '~' (m.symbol .nbsp) m.escape s

/-- **A tree made of a text is written as the text.** -/
theorem render_latex_ofTex (s : Text) : (ofTex s).render .latex = s := by
  rw [render_ofTex]
  calc s.flatMap (fun c => if c = '~' then Markup.latex.symbol .nbsp else Markup.latex.escape c)
      = s.flatMap fun c => [c] := by
        refine congrArg (List.flatMap · s) (funext fun c => ?_)
        split
        · next hc => rw [hc]; rfl
        · rfl
    _ = s := List.flatMap_singleton' s

/-- In text alone ties are spaces. -/
theorem render_plain_ofTex (s : Text) :
    (ofTex s).render .plain = s.map fun c => if c = '~' then ' ' else c := by
  rw [render_ofTex, List.map_eq_flatMap]
  refine congrArg (List.flatMap · s) (funext fun c => ?_)
  split <;> rfl

end RichText

/-! ## What can be seen -/

/-- A markup in which everything can be seen. -/
structure Markup.Visible (m : Markup) : Prop where
  escape (c : Char) : m.escape c ≠ []
  symbol (s : Symbol) : m.symbol s ≠ []
  span (tag : Text) {body : Text} (h : body ≠ []) : m.span tag body ≠ []

theorem Markup.visible_latex : latex.Visible where
  escape _ := List.cons_ne_nil _ _
  symbol s := by cases s <;> decide
  span _ _ _ := List.cons_ne_nil _ _

theorem Markup.visible_html : html.Visible where
  escape c := by
    unfold html
    dsimp only
    split <;> exact List.cons_ne_nil _ _
  symbol s := by cases s <;> decide
  span _ _ _ := List.cons_ne_nil _ _

theorem Markup.visible_plain : plain.Visible where
  escape _ := List.cons_ne_nil _ _
  symbol s := by cases s <;> decide
  span _ _ h := h

namespace RichText

variable {m : Markup} {t : RichText}

/-- Of trees for which nothing is written only if they are nothing, nothing is kept if nothing is
written. -/
theorem gather_eq_null {node : List RichText → RichText} {ts : List RichText}
    (h : ∀ t ∈ ts, t.render m = [] → t.isNull = true) (hnil : ts.flatMap (render m) = []) :
    gather node ts = .null := by
  rcases gather_eq_null_or node ts with ⟨-, heq⟩ | ⟨⟨t, ht, hkept⟩, -⟩
  · exact heq
  · rw [h t ht (List.flatMap_eq_nil_iff.1 hnil t ht)] at hkept
    cases hkept

/-- **A tree that is built is written as nothing only when it is nothing.** -/
theorem Built.render_eq_nil_iff (hm : m.Visible) (h : t.Built) :
    t.render m = [] ↔ t.isNull = true := by
  refine ⟨?_, render_of_isNull⟩
  induction h with
  | null => exact fun _ => rfl
  | symbol s => exact fun hrender => absurd hrender (hm.symbol s)
  | literal s =>
    intro hrender
    rw [render_literal, List.flatMap_eq_nil_iff] at hrender
    cases s with
    | nil => rfl
    | cons c s => exact absurd (hrender c List.mem_cons_self) (hm.escape c)
  | @tagged tag ts _ ih =>
    intro hrender
    rw [tagged_eq_gather] at hrender ⊢
    rcases gather_eq_null_or (.span tag) ts with ⟨-, heq⟩ | ⟨-, heq⟩
    · exact heq ▸ rfl
    · rw [heq, render, renderAll_eq, flatMap_render_filter] at hrender
      have hbody : ts.flatMap (render m) = [] :=
        Decidable.not_not.1 fun hbody => hm.span tag hbody hrender
      rw [gather_eq_null ih hbody]
      rfl
  | @seq ts _ ih =>
    intro hrender
    rw [render_seq] at hrender
    rw [seq_eq_gather, gather_eq_null ih hrender]
    rfl

/-- **Trees are written as nothing only when they are nothing.** A tree that is built is nothing or
has no hollow part, and in every markup nothing is written for it only if it is nothing. Rows are
written as one part after the other. A text is read as a tree that is built; in LaTeX it is written
as it was, and in text alone with spaces for ties. -/
theorem rendering_of_built :
    (∀ t : RichText, t.Built →
      (t = .null ∨ ∀ u ∈ t.nodes, u.isHollow = false) ∧
      ∀ m ∈ [Markup.latex, Markup.html, Markup.plain], (t.render m = [] ↔ t.isNull = true)) ∧
    (∀ (m : Markup) (ts : List RichText), (seq ts).render m = ts.flatMap (render m)) ∧
    (∀ s : Text, (ofTex s).Built ∧ (ofTex s).render .latex = s ∧
      (ofTex s).render .plain = s.map fun c => if c = '~' then ' ' else c) := by
  refine ⟨fun t ht => ⟨ht.solid, ?_⟩, render_seq,
    fun s => ⟨.ofTex s, render_latex_ofTex s, render_plain_ofTex s⟩⟩
  simp only [List.forall_mem_cons, List.not_mem_nil, false_imp_iff, implies_true, and_true]
  exact ⟨ht.render_eq_nil_iff Markup.visible_latex, ht.render_eq_nil_iff Markup.visible_html,
    ht.render_eq_nil_iff Markup.visible_plain⟩

/-- A tie, a span with an empty part, and a row of nothing. -/
def spanSample : RichText :=
  seq [ofTex ['d', 'e', '~'], tagged ['e', 'm'] [literal [], literal ['&']], seq [.null]]

theorem rendering_of_built_spanSample :
    spanSample.Built ∧ (∀ u ∈ spanSample.nodes, u.isHollow = false) ∧
      (spanSample.render .html = [] ↔ spanSample.isNull = true) := by
  have hspan : (tagged ['e', 'm'] [literal [], literal ['&']]).Built :=
    .tagged _ (List.forall_mem_cons.2 ⟨.literal _, List.forall_mem_singleton.2 (.literal _)⟩)
  have hnull : (seq [.null]).Built := .seq (List.forall_mem_singleton.2 .null)
  have hbuilt : spanSample.Built := .seq (List.forall_mem_cons.2
    ⟨.ofTex _, List.forall_mem_cons.2 ⟨hspan, List.forall_mem_singleton.2 hnull⟩⟩)
  obtain ⟨hsolid, hrender⟩ := rendering_of_built.1 spanSample hbuilt
  exact ⟨hbuilt, hsolid.resolve_left nofun, hrender .html (by simp)⟩

example : spanSample.render .html = "de&nbsp;<em>&amp;</em>".toList := by decide

end RichText

end Bibliography
