import Precedence.Expr.Basic

/-!
# The leaves of an expression and its span

The identifiers and literals of an expression from left to right are its leaves (`Expr.leaves`). The
span of an expression is the hull of those of its children (`Expr.span?_of_children`), so that it
covers them. Where each leaf ends before the next begins, the span goes from the first leaf to the
last, and children follow one another as their leaves do (`Expr.spanned_of_pairwise`).
-/

namespace Precedence

namespace Span

/-- The first span ends where the second begins, or before. -/
def Before (a b : Span) : Prop :=
  a.stop ≤ b.start

variable {s : Span} {spans : List Span}

theorem hull_cons (s : Span) (spans : List Span) :
    hull (s :: spans) = (some s).merge merge (hull spans) := by
  rcases spans with _ | ⟨a, spans⟩
  · rfl
  · refine congrArg some ?_
    induction spans generalizing a with
    | nil => rfl
    | cons b spans ih =>
      rw [List.foldl_cons, List.foldl_cons, List.foldl_cons, merge_assoc]
      exact ih (a.merge b)

theorem hull_append (spans spans' : List Span) :
    hull (spans ++ spans') = (hull spans).merge merge (hull spans') := by
  induction spans with
  | nil => exact Option.merge_none_left.symm
  | cons s spans ih =>
    rw [List.cons_append, hull_cons, hull_cons, ih]
    rcases hull spans with _ | a <;> rcases hull spans' with _ | b <;>
      simp [Option.merge, merge_assoc]

/-- A hull covers each of the spans, and begins and ends where one of them does. -/
theorem hull_eq_some (h : hull spans = some s) :
    (∀ a ∈ spans, s.start ≤ a.start ∧ a.stop ≤ s.stop) ∧
      (∃ a ∈ spans, s.start = a.start) ∧ ∃ a ∈ spans, s.stop = a.stop := by
  induction spans generalizing s with
  | nil => simp [hull] at h
  | cons a spans ih =>
    rw [hull_cons] at h
    rcases hrest : hull spans with _ | b
    · obtain rfl : a = s := by simpa [hrest] using h
      obtain rfl : spans = [] := by
        rcases spans with _ | ⟨b, spans⟩
        · rfl
        · simp [hull] at hrest
      simp
    · obtain rfl : a.merge b = s := by simpa [hrest] using h
      obtain ⟨hall, ⟨c, hc, hstart⟩, d, hd, hstop⟩ := ih hrest
      refine ⟨fun x hx => ?_, ?_, ?_⟩
      · rcases List.mem_cons.mp hx with rfl | hx
        · exact ⟨Nat.min_le_left _ _, Nat.le_max_left _ _⟩
        · exact ⟨Nat.le_trans (Nat.min_le_right _ _) (hall x hx).1,
            Nat.le_trans (hall x hx).2 (Nat.le_max_right _ _)⟩
      · rcases Nat.le_total a.start b.start with hle | hle
        · exact ⟨a, List.mem_cons_self, Nat.min_eq_left hle⟩
        · exact ⟨c, List.mem_cons_of_mem _ hc, (Nat.min_eq_right hle).trans hstart⟩
      · rcases Nat.le_total a.stop b.stop with hle | hle
        · exact ⟨d, List.mem_cons_of_mem _ hd, (Nat.max_eq_right hle).trans hstop⟩
        · exact ⟨a, List.mem_cons_self, Nat.max_eq_left hle⟩

/-- The hull of spans that follow one another goes from the first to the last. -/
theorem hull_of_pairwise (h : spans.Pairwise Before) (hle : ∀ a ∈ spans, a.start ≤ a.stop)
    {first last : Span} (hfirst : spans.head? = some first) (hlast : spans.getLast? = some last) :
    hull spans = some ⟨first.start, last.stop⟩ := by
  obtain ⟨rest, rfl⟩ := List.head?_eq_some_iff.mp hfirst
  obtain ⟨front, hfront⟩ := List.getLast?_eq_some_iff.mp hlast
  rcases hs : hull (first :: rest) with _ | s
  · simp [hull] at hs
  obtain ⟨hall, ⟨a, ha, hstart⟩, b, hb, hstop⟩ := hull_eq_some hs
  have hfirst_le : first.start ≤ a.start := by
    rcases List.mem_cons.mp ha with rfl | ha'
    · exact Nat.le_refl _
    · exact Nat.le_trans (hle first List.mem_cons_self) ((List.pairwise_cons.mp h).1 a ha')
  have hle_last : b.stop ≤ last.stop := by
    rw [hfront] at hb h
    rcases List.mem_append.mp hb with hb' | hb'
    · have hbefore : b.stop ≤ last.start :=
        (List.pairwise_append.mp h).2.2 b hb' last (List.mem_singleton.mpr rfl)
      exact Nat.le_trans hbefore (hle last (by rw [hfront]; simp))
    · exact Nat.le_of_eq (congrArg stop (List.mem_singleton.mp hb'))
  have hfirst' := (hall first List.mem_cons_self).1
  have hlast' := (hall last (by rw [hfront]; simp)).2
  obtain ⟨start, stop⟩ := s
  simp only at hstart hstop hfirst' hlast'
  rw [show start = first.start by omega, show stop = last.stop by omega]

end Span

namespace Expr

/-- The expressions that an expression is put together of, from left to right. -/
def children : Expr → List Expr
  | identifier _ _ => []
  | literal _ _ _ => []
  | unary _ argument => [argument]
  | binary _ left right => [left, right]
  | conditional test consequent alternate => [test, consequent, alternate]
  | compound leaves => leaves
  | assignment target value => [target, value]
  | hole => []

/-- An expression, or one that it is put together of, at any depth. -/
inductive Within : Expr → Expr → Prop
  | refl (e : Expr) : Within e e
  | child {n c e : Expr} (hc : c ∈ e.children) (h : Within n c) : Within n e

mutual

/-- The identifiers and literals from left to right. -/
def leaves : Expr → List Expr
  | identifier name span => [identifier name span]
  | literal value raw span => [literal value raw span]
  | unary _ argument => leaves argument
  | binary _ left right => leaves left ++ leaves right
  | conditional test consequent alternate => leaves test ++ leaves consequent ++ leaves alternate
  | compound elements => leavesOfAll elements
  | assignment target value => leaves target ++ leaves value
  | hole => []

def leavesOfAll : List Expr → List Expr
  | [] => []
  | e :: rest => leaves e ++ leavesOfAll rest

end

theorem leavesOfAll_eq (es : List Expr) : leavesOfAll es = es.flatMap leaves := by
  induction es with
  | nil => rfl
  | cons e es ih => rw [leavesOfAll, ih, List.flatMap_cons]

theorem leafSpansOfAll_eq (es : List Expr) : leafSpansOfAll es = es.flatMap leafSpans := by
  induction es with
  | nil => rfl
  | cons e es ih => rw [leafSpansOfAll, ih, List.flatMap_cons]

mutual

/-- Each leaf has its span. -/
theorem map_span?_leaves : ∀ e : Expr, e.leaves.map span? = e.leafSpans.map some
  | identifier _ _ => rfl
  | literal _ _ _ => rfl
  | unary _ argument => map_span?_leaves argument
  | binary _ left right => by
    simp only [leaves, leafSpans, List.map_append, map_span?_leaves left, map_span?_leaves right]
  | conditional test consequent alternate => by
    simp only [leaves, leafSpans, List.map_append, map_span?_leaves test,
      map_span?_leaves consequent, map_span?_leaves alternate]
  | compound elements => map_span?_leavesOfAll elements
  | assignment target value => by
    simp only [leaves, leafSpans, List.map_append, map_span?_leaves target,
      map_span?_leaves value]
  | hole => rfl

theorem map_span?_leavesOfAll : ∀ es : List Expr,
    (leavesOfAll es).map span? = (leafSpansOfAll es).map some
  | [] => rfl
  | e :: rest => by
    simp only [leavesOfAll, leafSpansOfAll, List.map_append, map_span?_leaves e,
      map_span?_leavesOfAll rest]

end

variable {e n : Expr}

theorem leafSpans_of_children (h : e.children ≠ []) :
    e.leafSpans = e.children.flatMap leafSpans := by
  cases e with
  | identifier | literal | hole => exact absurd rfl h
  | unary | binary | assignment => simp [children, leafSpans]
  | conditional => simp [children, leafSpans]
  | compound leaves => exact leafSpansOfAll_eq leaves

/-- The span of an expression with children is put together of theirs. -/
theorem span?_of_children (h : e.children ≠ []) :
    e.span? = Span.hull (e.children.filterMap span?) := by
  rw [span?, leafSpans_of_children h]
  induction e.children with
  | nil => rfl
  | cons c children ih =>
    rw [List.flatMap_cons, Span.hull_append, ih, List.filterMap_cons, span?]
    rcases Span.hull c.leafSpans with _ | s
    · exact Option.merge_none_left
    · exact (Span.hull_cons s _).symm

theorem Within.leafSpans_sublist (h : Within n e) : n.leafSpans.Sublist e.leafSpans := by
  induction h with
  | refl => exact .refl _
  | child hc _ ih =>
    rw [leafSpans_of_children (List.ne_nil_of_mem hc), List.flatMap_def]
    exact ih.trans (List.sublist_flatten_of_mem (List.mem_map_of_mem hc))

/-- The span of an expression goes from its first leaf to its last and covers the spans of its
children, which follow one another. -/
structure Spanned (e : Expr) : Prop where
  leaves : ∃ first last, e.leaves.head?.bind span? = some first ∧
    e.leaves.getLast?.bind span? = some last ∧ e.span? = some ⟨first.start, last.stop⟩
  covers : ∀ c ∈ e.children, ∀ s ∈ c.span?, ∀ t ∈ e.span?, t.start ≤ s.start ∧ s.stop ≤ t.stop
  siblings : (e.children.filterMap span?).Pairwise Span.Before

theorem spanned_of_pairwise (hne : e.leaves ≠ []) (h : e.leafSpans.Pairwise Span.Before)
    (hle : ∀ s ∈ e.leafSpans, s.start ≤ s.stop) : Spanned e := by
  have hspans := map_span?_leaves e
  constructor
  case leaves =>
    have hne' : e.leafSpans ≠ [] := fun hnil => by simp [hnil, hne] at hspans
    obtain ⟨first, hfirst⟩ := Option.ne_none_iff_exists'.mp (mt List.head?_eq_none_iff.mp hne')
    obtain ⟨last, hlast⟩ := Option.ne_none_iff_exists'.mp (mt List.getLast?_eq_none_iff.mp hne')
    have hhead := congrArg List.head? hspans
    have htail := congrArg List.getLast? hspans
    rw [List.head?_map, List.head?_map, hfirst] at hhead
    rw [List.getLast?_map, List.getLast?_map, hlast] at htail
    refine ⟨first, last, ?_, ?_, Span.hull_of_pairwise h hle hfirst hlast⟩
    · obtain ⟨leaf, hleaf, hspan⟩ := Option.map_eq_some_iff.mp hhead
      rw [hleaf]
      exact hspan
    · obtain ⟨leaf, hleaf, hspan⟩ := Option.map_eq_some_iff.mp htail
      rw [hleaf]
      exact hspan
  case covers =>
    intro c hc s hs t ht
    rw [span?_of_children (List.ne_nil_of_mem hc)] at ht
    exact (Span.hull_eq_some ht).1 s (List.mem_filterMap.mpr ⟨c, hc, hs⟩)
  case siblings =>
    by_cases hchildren : e.children = []
    · rw [hchildren]
      exact .nil
    rw [leafSpans_of_children hchildren] at h
    refine List.pairwise_filterMap.mpr ((List.pairwise_flatMap.mp h).2.imp ?_)
    intro c c' hbefore s hs s' hs'
    obtain ⟨-, -, a, ha, hstop⟩ := Span.hull_eq_some hs
    obtain ⟨-, ⟨b, hb, hstart⟩, -⟩ := Span.hull_eq_some hs'
    show s.stop ≤ s'.start
    rw [hstop, hstart]
    exact hbefore a ha b hb

end Expr

end Precedence
