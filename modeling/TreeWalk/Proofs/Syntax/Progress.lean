import TreeWalk.Proofs.Syntax.Confinement
import TreeWalk.Proofs.Syntax.StatementRules

/-!
# What the first token decides

A declaration begins with one of `Grammar.declarationStarts`.  In front of a token of another kind
the rule fails at once, with the same error each time, and leaves the parser as it is.  In front of
a token of such a kind it consumes that token, whether it fails later on or not.
-/

set_option autoImplicit false

namespace TreeWalk

open TreeWalk.Parser (Passed Stops)
open Stateful (bind_of_error bind_of_ok)

/-- The kinds of token that a declaration begins with. -/
def Grammar.declarationStarts : List Kind := .keyVar :: statementStarts

open Grammar (declarationStarts expressionStarts leafKinds statementStarts)

theorem Parser.stops_of_next {parser : Parser} {kinds : List Kind}
    (other : parser.next.kind ∉ kinds) : Stops kinds parser.ahead := by
  intro token head
  cases ahead : parser.ahead with
  | nil => simp [ahead] at head
  | cons first rest =>
      rw [next_of_ahead ahead] at other
      simp only [ahead, List.head?_cons, Option.mem_def, Option.some.injEq] at head
      rwa [← head]

theorem Grammar.leafValue?_eq_none_iff {token : Token} :
    Rule.leafValue? token = none ↔ token.kind ∉ leafKinds := by
  constructor
  · intro nothing member
    simp only [leafKinds, List.mem_cons, List.not_mem_nil, or_false] at member
    rcases member with kind | kind | kind | kind | kind <;>
      simp [Rule.leafValue?, kind] at nothing
  · intro other
    cases found : Rule.leafValue? token with
    | none => rfl
    | some value => exact absurd (leafValue?_eq_some_iff.mp found).kind_mem other

namespace Rule

variable {α β : Type} {before : Parser}

/-! ## Failing at once -/

/-- The rule fails at the next token and does nothing else. -/
def Refuses (rule : Rule α) (parser : Parser) : Prop :=
  rule parser = .error ⟨.expectedExpression, parser.next⟩ parser

theorem Refuses.bind {first : Rule α} (refuses : Refuses first before) (next : α → Rule β) :
    Refuses (first >>= next) before :=
  bind_of_error next refuses

theorem Refuses.without {kinds : List Kind} {next : Option Token → Rule α}
    (other : before.next.kind ∉ kinds) (refuses : Refuses (next none) before) :
    Refuses (accept? kinds >>= next) before :=
  (bind_of_ok next (accept?_of_stops (Parser.stops_of_next other))).trans refuses

theorem refuses_primary {inner : Rule Expr} (other : before.next.kind ∉ expressionStarts) :
    Refuses (primary inner) before := by
  have noLeaf : leafValue? before.next = none := by
    refine Grammar.leafValue?_eq_none_iff.mpr fun leaf => other ?_
    have starts : ∀ kind ∈ leafKinds, kind ∈ expressionStarts := by decide
    exact starts _ leaf
  refine (bind_of_ok _ rfl : primary inner before = _).trans ?_
  rw [noLeaf]
  dsimp only
  generalize before.next.kind = kind at other
  split
  · exact absurd (by decide) other
  · exact absurd (by decide) other
  · rfl

theorem refuses_prefixed {operand : Rule Expr} (refuses : Refuses operand before)
    (other : before.next.kind ∉ [Kind.bang, .minus]) (count : Nat) :
    Refuses (prefixed operand count) before := by
  cases count with
  | zero => exact refuses
  | succ count => exact Refuses.without other refuses

theorem refuses_climb {operand : Rule Expr} (refuses : Refuses operand before)
    (rungs : List Rung) : Refuses (climb rungs operand) before := by
  induction rungs with
  | nil => exact refuses
  | cons rung tighter ih => exact ih.bind _

theorem refuses_expressionWithin (other : before.next.kind ∉ expressionStarts) (depth : Nat) :
    Refuses (expressionWithin depth) before := by
  cases depth with
  | zero => rfl
  | succ depth =>
      have noPrefix : before.next.kind ∉ [Kind.bang, .minus] := by
        have starts : ∀ kind ∈ [Kind.bang, .minus], kind ∈ expressionStarts := by decide
        exact fun member => other (starts _ member)
      have operand : Refuses (Grammar.operandWithin depth) before :=
        refuses_prefixed (refuses_primary other) noPrefix (before.ahead.length + 1)
      exact (refuses_climb operand Rung.ladder).bind _

theorem refuses_expressionStatement (other : before.next.kind ∉ expressionStarts) :
    Refuses expressionStatement before :=
  Refuses.bind (refuses_expressionWithin other (before.ahead.length + 1)) _

theorem refuses_statementWithin (other : before.next.kind ∉ statementStarts) (depth : Nat) :
    Refuses (statementWithin depth) before := by
  have plain := refuses_expressionStatement fun member => other (List.mem_append_right _ member)
  cases depth with
  | zero => exact plain
  | succ depth => exact .without (fun member => other (List.mem_append_left _ member)) plain

theorem refuses_topDeclaration (other : before.next.kind ∉ declarationStarts) :
    Refuses topDeclaration before := by
  have noVar : before.next.kind ∉ [Kind.keyVar] := by
    rw [List.mem_singleton]
    exact fun same => other (List.mem_cons.mpr (Or.inl same))
  exact Refuses.without noVar
    (refuses_statementWithin (fun member => other (List.mem_cons_of_mem _ member))
      (before.ahead.length + 1))

/-! ## Consuming the first token -/

/-- The rule consumes a token, whatever comes of it. -/
def Advances (rule : Rule α) (parser : Parser) : Prop :=
  parser.position < (left rule parser).position

theorem Advances.bind {first : Rule α} {next : α → Rule β} (advances : Advances first before)
    (late : ∀ value, Composed (next value)) : Advances (first >>= next) before := by
  unfold Advances at advances ⊢
  cases run : first before with
  | ok value middle =>
      rw [left_of_ok run] at advances
      rw [left_bind_of_ok next run]
      obtain ⟨read, noted, passed⟩ := (late value).confined middle
      rw [passed.position]
      omega
  | error failure middle =>
      rw [left_of_error run] at advances
      rwa [left_bind_of_error next run]

theorem Advances.behind {first : Rule α} {next : α → Rule β} {value : α}
    (run : first before = .ok value before) (advances : Advances (next value) before) :
    Advances (first >>= next) before := by
  unfold Advances at advances ⊢
  rwa [left_bind_of_ok next run]

theorem advances_step {rest : List Token} (ahead : before.ahead = before.next :: rest) :
    Advances step before := by
  have passed : Passed before [before.next] [] (left step before) := .step ahead
  unfold Advances
  rw [passed.position]
  exact Nat.lt_succ_self _

theorem advances_accept? {kinds : List Kind} {next : Option Token → Rule α} {rest : List Token}
    (ahead : before.ahead = before.next :: rest) (late : ∀ accepted, Composed (next accepted))
    (without : before.next.kind ∉ kinds → Advances (next none) before) :
    Advances (accept? kinds >>= next) before := by
  by_cases member : before.next.kind ∈ kinds
  · have taken := accept?_of_mem ahead member
    refine Advances.bind ?_ late
    unfold Advances
    rw [left_of_ok taken]
    exact Nat.lt_succ_self _
  · exact .behind (accept?_of_stops (Parser.stops_of_next member)) (without member)

section First

variable {rest : List Token} (ahead : before.ahead = before.next :: rest)

include ahead

theorem advances_primary {inner : Rule Expr} (composed : Composed inner)
    (starts : before.next.kind ∈ expressionStarts)
    (noPrefix : before.next.kind ∉ [Kind.bang, .minus]) : Advances (primary inner) before := by
  refine Advances.behind (rfl : peek before = .ok before.next before) ?_
  have step := advances_step ahead
  cases found : leafValue? before.next with
  | some value => exact step.bind fun _ => .pure _
  | none =>
      have others : ∀ kind ∈ expressionStarts, kind ∉ [Kind.bang, .minus] → kind ∉ leafKinds →
          kind = .identifier ∨ kind = .leftParen := by decide
      dsimp only
      rcases others _ starts noPrefix (Grammar.leafValue?_eq_none_iff.mp found) with name | paren
      · simp only [name]
        exact step.bind fun _ => .pure _
      · simp only [paren]
        exact step.bind fun _ => composed.bind fun _ => (composed_expect _ _).bind fun _ => .pure _

theorem advances_prefixed {operand : Rule Expr} (composed : Composed operand)
    (advances : before.next.kind ∉ [Kind.bang, .minus] → Advances operand before) (count : Nat) :
    Advances (prefixed operand (count + 1)) before := by
  refine advances_accept? ahead (fun accepted => ?_) advances
  cases accepted with
  | none => exact composed
  | some operator => exact (composed_prefixed composed count).bind fun _ => .pure _

omit ahead in
theorem advances_climb {operand : Rule Expr} (composed : Composed operand)
    (advances : Advances operand before) (rungs : List Rung) :
    Advances (climb rungs operand) before := by
  induction rungs with
  | nil => exact advances
  | cons rung tighter ih =>
      exact ih.bind fun left => Composed.bound.bind fun count =>
        composed_chain (composed_climb composed tighter) rung count left

theorem advances_expressionWithin (starts : before.next.kind ∈ expressionStarts) (depth : Nat) :
    Advances (expressionWithin (depth + 1)) before := by
  have inner := composed_primary (composed_expressionWithin depth)
  have operand : Advances (Grammar.operandWithin depth) before :=
    advances_prefixed ahead inner
      (advances_primary ahead (composed_expressionWithin depth) starts) before.ahead.length
  have composed : Composed (Grammar.operandWithin depth) :=
    Composed.bound.bind fun count => composed_prefixed inner count
  exact (advances_climb composed operand Rung.ladder).bind fun target =>
    .assignment target (composed_expressionWithin depth)

theorem advances_expressionStatement (starts : before.next.kind ∈ expressionStarts) :
    Advances expressionStatement before :=
  Advances.bind (advances_expressionWithin ahead starts before.ahead.length) fun _ =>
    (composed_expect _ _).bind fun _ => .pure _

theorem advances_statementWithin (starts : before.next.kind ∈ statementStarts) (depth : Nat) :
    Advances (statementWithin (depth + 1)) before := by
  refine advances_accept? ahead (composed_statementBehind (composed_statementWithin depth)) ?_
  intro noKeyword
  rcases List.mem_append.mp starts with keyword | plain
  · exact absurd keyword noKeyword
  · exact advances_expressionStatement ahead plain

theorem advances_topDeclaration (starts : before.next.kind ∈ declarationStarts) :
    Advances topDeclaration before := by
  refine Advances.behind (rfl : bound before = .ok (before.ahead.length + 1) before) ?_
  refine advances_accept? ahead (fun accepted => ?_) fun noVar => ?_
  · cases accepted with
    | none => exact composed_statementWithin _
    | some keyword => exact composed_variableDeclaration
  · rcases List.mem_cons.mp starts with isVar | others
    · exact absurd (List.mem_singleton.mpr isVar) noVar
    · exact advances_statementWithin ahead others before.ahead.length

end First

end Rule

end TreeWalk
