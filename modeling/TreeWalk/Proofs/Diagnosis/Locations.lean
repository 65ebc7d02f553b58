import TreeWalk.Proofs.Diagnosis.ReportedSpans

/-!
# Locations of expressions

The tokens that an expression has kept stand in the source one behind the other.  Its location goes
from the start of the first to the end of the last of them, although it is merged from locations of
operands only.  So locations are nested as expressions are, and an operator stands between the
locations of its operands.
-/

set_option autoImplicit false

namespace TreeWalk

open Scanner (SpanBefore)

/-! ## Spans one behind the other -/

namespace Span

/-- Each of the spans covers something, and the next one begins behind it. -/
structure Ordered (spans : List Span) : Prop where
  before : spans.Pairwise SpanBefore
  nonempty : ∀ span ∈ spans, span.start < span.stop

theorem Ordered.sublist {spans others : List Span} (ordered : Ordered spans)
    (part : others.Sublist spans) : Ordered others :=
  ⟨ordered.before.sublist part, fun span member => ordered.nonempty span (part.subset member)⟩

/-- The span goes from the start of the first to the end of the last of these spans. -/
structure Hull (spans : List Span) (whole : Span) : Prop where
  first : spans.head?.map start = some whole.start
  last : spans.getLast?.map stop = some whole.stop

variable {spans front back : List Span} {whole left right : Span}

theorem hull_singleton (span : Span) : Hull [span] span := ⟨rfl, rfl⟩

theorem Hull.start_mem (hull : Hull spans whole) : ∃ span ∈ spans, span.start = whole.start := by
  obtain ⟨span, first, same⟩ := Option.map_eq_some_iff.mp hull.first
  exact ⟨span, List.mem_of_mem_head? first, same⟩

theorem Hull.stop_mem (hull : Hull spans whole) : ∃ span ∈ spans, span.stop = whole.stop := by
  obtain ⟨span, last, same⟩ := Option.map_eq_some_iff.mp hull.last
  exact ⟨span, List.mem_of_getLast? last, same⟩

theorem Hull.within (hull : Hull spans whole) (ordered : Ordered spans) {span : Span}
    (member : span ∈ spans) : whole.start ≤ span.start ∧ span.stop ≤ whole.stop := by
  obtain ⟨first, head, start⟩ := Option.map_eq_some_iff.mp hull.first
  obtain ⟨last, final, stop⟩ := Option.map_eq_some_iff.mp hull.last
  constructor
  · obtain ⟨rest, rfl⟩ := List.head?_eq_some_iff.mp head
    rcases List.mem_cons.mp member with rfl | member
    · exact start.ge
    · have before := List.rel_of_pairwise_cons ordered.before member
      have order := before.1
      have behind := before.2
      omega
  · obtain ⟨rest, rfl⟩ := List.getLast?_eq_some_iff.mp final
    rcases List.mem_append.mp member with early | member
    · have before := (List.pairwise_append.mp ordered.before).2.2 span early last
        (List.mem_singleton_self last)
      have some := ordered.nonempty last (List.mem_append_right _ (List.mem_singleton_self last))
      have behind := before.2
      omega
    · obtain rfl := List.mem_singleton.mp member
      exact stop.le

theorem Hull.start_lt_stop (hull : Hull spans whole) (ordered : Ordered spans) :
    whole.start < whole.stop := by
  obtain ⟨span, member, start⟩ := hull.start_mem
  have some := ordered.nonempty span member
  have within := (hull.within ordered member).2
  omega

theorem Hull.apart (early : Hull front left) (late : Hull back right)
    (before : ∀ one ∈ front, ∀ other ∈ back, SpanBefore one other) : left.stop ≤ right.start := by
  obtain ⟨one, first, stop⟩ := early.stop_mem
  obtain ⟨other, second, start⟩ := late.start_mem
  have order := (before one first other second).2
  omega

theorem Hull.merge (early : Hull front left) (middle : List Span) (late : Hull back right)
    (ordered : Ordered (front ++ (middle ++ back))) :
    Hull (front ++ (middle ++ back)) (left.merge right) := by
  have first := early.start_lt_stop (ordered.sublist (List.sublist_append_left _ _))
  have second := late.start_lt_stop
    (ordered.sublist ((List.sublist_append_right _ _).trans (List.sublist_append_right _ _)))
  have order := early.apart late fun one among other behind =>
    (List.pairwise_append.mp ordered.before).2.2 one among other (List.mem_append_right _ behind)
  have start : (left.merge right).start = left.start := Nat.min_eq_left (by omega)
  have stop : (left.merge right).stop = right.stop := Nat.max_eq_right (by omega)
  obtain ⟨head, begins, -⟩ := Option.map_eq_some_iff.mp early.first
  obtain ⟨last, ends, -⟩ := Option.map_eq_some_iff.mp late.last
  refine ⟨?_, ?_⟩
  · rw [List.head?_append, begins, Option.some_or, ← begins, early.first, start]
  · rw [List.getLast?_append, List.getLast?_append, ends, Option.some_or, Option.some_or, ← ends,
      late.last, stop]

end Span

/-! ## Expressions -/

theorem Expr.hull_location {expr : Expr} (ordered : Span.Ordered expr.spans) :
    Span.Hull expr.spans expr.location := by
  induction expr with
  | literal value span => exact Span.hull_singleton span
  | grouping inner ih => exact ih ordered
  | reference name => exact Span.hull_singleton name.span
  | unary operator right ih =>
      have inside := ih (ordered.sublist (List.sublist_cons_self _ _))
      exact (Span.hull_singleton operator.span).merge [] inside ordered
  | assign name value ih =>
      have inside := ih (ordered.sublist (List.sublist_cons_self _ _))
      exact (Span.hull_singleton name.span).merge [] inside ordered
  | binary left operator right leftIh rightIh | logical left operator right leftIh rightIh =>
      have first := leftIh (ordered.sublist (List.sublist_append_left _ _))
      have second := rightIh (ordered.sublist
        ((List.sublist_cons_self _ _).trans (List.sublist_append_right _ _)))
      exact first.merge [operator.span] second ordered

theorem Expr.spans_of_node {expr node : Expr} (inside : node ∈ expr.nodes) :
    node.spans.Sublist expr.spans := by
  induction expr with
  | literal value span =>
      obtain rfl := List.mem_singleton.mp inside
      exact List.Sublist.refl _
  | reference name =>
      obtain rfl := List.mem_singleton.mp inside
      exact List.Sublist.refl _
  | grouping inner ih =>
      rcases List.mem_cons.mp inside with rfl | inside
      · exact List.Sublist.refl _
      · exact ih inside
  | unary operator right ih =>
      rcases List.mem_cons.mp inside with rfl | inside
      · exact List.Sublist.refl _
      · exact (ih inside).cons _
  | assign name value ih =>
      rcases List.mem_cons.mp inside with rfl | inside
      · exact List.Sublist.refl _
      · exact (ih inside).cons _
  | binary left operator right leftIh rightIh | logical left operator right leftIh rightIh =>
      rcases List.mem_cons.mp inside with rfl | inside
      · exact List.Sublist.refl _
      · rcases List.mem_append.mp inside with inside | inside
        · exact (leftIh inside).trans (List.sublist_append_left _ _)
        · exact ((rightIh inside).cons _).trans (List.sublist_append_right _ _)

/-- The operator stands between the locations of its operands. -/
def Expr.Divided (left : Expr) (operator : Token) (right : Expr) : Prop :=
  left.location.stop ≤ operator.span.start ∧ operator.span.stop ≤ right.location.start

/-- What the location of an expression says. -/
structure Expr.Located (expr : Expr) : Prop where
  /-- Literals, names and operators stand one behind the other. -/
  ordered : Span.Ordered expr.spans
  nonempty : expr.location.start < expr.location.stop
  exact : Span.Hull expr.spans expr.location
  nested : ∀ node ∈ expr.nodes,
    expr.location.start ≤ node.location.start ∧ node.location.stop ≤ expr.location.stop
  divided : ∀ left operator right,
    expr = .binary left operator right ∨ expr = .logical left operator right →
      Divided left operator right

theorem Expr.divided_of_ordered {left right : Expr} {operator : Token}
    (ordered : Span.Ordered (left.spans ++ operator.span :: right.spans)) :
    Divided left operator right := by
  obtain ⟨first, rest, before⟩ := List.pairwise_append.mp ordered.before
  obtain ⟨behind, -⟩ := List.pairwise_cons.mp rest
  have leftHull := Expr.hull_location (ordered.sublist (List.sublist_append_left _ _))
  have rightHull := Expr.hull_location (ordered.sublist
    ((List.sublist_cons_self _ _).trans (List.sublist_append_right _ _)))
  have operatorHull := Span.hull_singleton operator.span
  refine ⟨leftHull.apart operatorHull fun one among other member => ?_,
    operatorHull.apart rightHull fun one among other member => ?_⟩
  · obtain rfl := List.mem_singleton.mp member
    exact before one among _ List.mem_cons_self
  · obtain rfl := List.mem_singleton.mp among
    exact behind other member

theorem Expr.located_of_ordered {expr : Expr} (ordered : Span.Ordered expr.spans) :
    expr.Located := by
  have hull := Expr.hull_location ordered
  refine ⟨ordered, hull.start_lt_stop ordered, hull, fun node inside => ?_, ?_⟩
  · have part := Expr.spans_of_node inside
    have inner := Expr.hull_location (ordered.sublist part)
    obtain ⟨first, begins, start⟩ := inner.start_mem
    obtain ⟨last, ends, stop⟩ := inner.stop_mem
    rw [← start, ← stop]
    exact ⟨(hull.within ordered (part.subset begins)).1, (hull.within ordered (part.subset ends)).2⟩
  · rintro left operator right (rfl | rfl) <;> exact Expr.divided_of_ordered ordered

/-! ## Sources -/

theorem Scan.ordered_inside (source : String) :
    Span.Ordered
      (((ofSource source).tokens.takeWhile fun token => !token.isEnd).map Token.span) := by
  obtain ⟨front, tokens, inner⟩ := Scanner.tokens_ending source
  have before := Scanner.tokens_before source
  have kept : (ofSource source).tokens.takeWhile (fun token => !token.isEnd) = front := by
    rw [tokens]
    exact Parsed.ahead_ofTokens inner rfl
  rw [tokens] at before
  obtain ⟨ordered, -, last⟩ := List.pairwise_append.mp before
  rw [kept]
  refine ⟨List.pairwise_map.mpr ordered, fun span member => ?_⟩
  obtain ⟨token, among, rfl⟩ := List.mem_map.mp member
  exact (last token among _ (List.mem_singleton_self _)).1

/-- Whatever source a program was parsed from, also with errors, the location of each of its
expressions goes from the start of its first to the end of its last literal, name or operator; it
holds the locations of the expressions inside, with operators between their operands. -/
theorem Parsed.locations_exact {source : String} {expr : Expr}
    (parsed : expr ∈ Stmt.allNodes (Parsed.ofSource source).1.statements) : expr.Located := by
  have kept := (Parsed.origin_of_node parsed).spans_sublist
  exact Expr.located_of_ordered ((Scan.ordered_inside source).sublist kept)

/-- What follows the product is no part of it, since it cannot be assigned to; neither are the
parentheses in front. -/
theorem Parsed.locations_exact_misassigned :
    ∃ expr ∈ Stmt.allNodes (Parsed.ofSource "(-a) * \"c\" = b;").1.statements,
      expr.location = ⟨1, 10⟩ ∧ expr.Located := by
  obtain ⟨expr, same, parsed⟩ : ∃ expr : Expr, expr =
      .binary (.grouping (.unary ⟨.minus, "-", none, 1, ⟨1, 2⟩⟩
          (.reference ⟨.identifier, "a", none, 1, ⟨2, 3⟩⟩)))
        ⟨.star, "*", none, 1, ⟨5, 6⟩⟩ (.literal (.text "c") ⟨7, 10⟩) ∧
      expr ∈ Stmt.allNodes (Parsed.ofSource "(-a) * \"c\" = b;").1.statements :=
    ⟨_, rfl, List.mem_cons_self⟩
  exact ⟨expr, parsed, by rw [same]; rfl, Parsed.locations_exact parsed⟩

end TreeWalk
