import TreeWalk.Proofs.Diagnosis.Origins
import TreeWalk.Proofs.Scanning.Lines

/-!
# Lines of runtime errors

The tokens in the tree of a statement are among the tokens that it was read from.  So a fault that
blames a name or an operator tells the line on which that stands.  Only a literal has kept no
token: when the sink refuses to print one, the fault carries a token made up for the occasion, and
its line is none of the source.
-/

set_option autoImplicit false

namespace TreeWalk

/-! ## Tokens of trees -/

theorem Expr.tokens_eq_gathered (expr : Expr) :
    expr.tokens = expr.gathered id fun _ => [] := by
  induction expr with
  | literal | reference => rfl
  | grouping inner ih => exact ih
  | unary operator right ih => exact congrArg (List.cons operator) ih
  | binary left operator right leftIh rightIh | logical left operator right leftIh rightIh =>
      rw [Expr.tokens, leftIh, rightIh]
      rfl
  | assign name value ih => exact congrArg (List.cons name) ih

namespace Grammar

def Holds (tokens : List Token) (occurrences : List Occurrence) : Prop :=
  ∀ occurrence ∈ occurrences, occurrence.expr.tokens.Sublist tokens

theorem Origin.tokens_sublist {tokens : List Token} {expr : Expr} (origin : Origin tokens expr) :
    expr.tokens.Sublist tokens := by
  have kept : (expr.gathered id fun _ => []).Sublist (tokens.map id) :=
    origin.gathered_sublist fun token => List.nil_sublist [token]
  rwa [← expr.tokens_eq_gathered, List.map_id] at kept

end Grammar

/-! ## Faults of a run -/

def Expr.ungrouped : Expr → Expr
  | grouping inner => inner.ungrouped
  | expr => expr

theorem Expr.printToken_cases (expr : Expr) :
    expr.printToken ∈ expr.tokens ∨ ∃ value span, expr.ungrouped = .literal value span ∧
      expr.printToken = ⟨.keyPrint, "print", none, 0, span⟩ := by
  induction expr with
  | literal value span => exact Or.inr ⟨value, span, rfl, rfl⟩
  | grouping inner ih => exact ih
  | unary operator right => exact Or.inl List.mem_cons_self
  | binary left operator right | logical left operator right =>
      exact Or.inl (List.mem_append_right _ List.mem_cons_self)
  | reference name => exact Or.inl (List.mem_singleton_self name)
  | assign name value => exact Or.inl List.mem_cons_self

theorem Parsed.holds_ofSource (source : String) :
    Grammar.Holds (Scan.ofSource source).tokens
      (Stmt.allOccurrences (Parsed.ofSource source).1.statements) := by
  intro occurrence member
  exact (Parsed.origins_ofTokens _ occurrence member).tokens_sublist

theorem Scanner.line_of_sublist {source : String} {expr : Expr} {token : Token}
    (held : expr.tokens.Sublist (Scan.ofSource source).tokens) (member : token ∈ expr.tokens) :
    token ∈ (Scan.ofSource source).tokens ∧ token.line = lineOf source token.span.start :=
  ⟨held.subset member, Scanner.token_line (held.subset member)⟩

/-- The fault that ends a run of a parsed source blames a token of the source and tells the line on
which this begins, or else the sink has refused a literal.  Then the fault tells line 0, which is
the line of no offset. -/
theorem Machine.Ends.fault_line {source : String} {machine left : Machine} {fault : Fault}
    (ends : machine.Ends (Parsed.ofSource source).1.statements (some fault) left) :
    (fault.token ∈ (Scan.ofSource source).tokens ∧
      fault.token.line = lineOf source fault.token.span.start) ∨
    ∃ failure, fault.cause = .outputFailed failure ∧
      ∃ occurrence ∈ Stmt.allOccurrences (Parsed.ofSource source).1.statements,
        occurrence.printed = true ∧ ∃ value span, occurrence.expr.ungrouped = .literal value span ∧
          fault.token = ⟨.keyPrint, "print", none, 0, span⟩ := by
  obtain ⟨occurrence, among, raises⟩ := ends.raised
  have held := Parsed.holds_ofSource source occurrence among
  rcases raises with ⟨start, after, run⟩ | ⟨printed, failure, rfl⟩
  · exact Or.inl (Scanner.line_of_sublist held (Expr.evaluate_raises run))
  · rcases occurrence.expr.printToken_cases with member | ⟨value, span, literal, blamed⟩
    · exact Or.inl (Scanner.line_of_sublist held member)
    · exact Or.inr ⟨failure, rfl, occurrence, among, printed, value, span, literal, blamed⟩

/-- A name without a value is blamed on the second of two lines. -/
theorem Machine.Ends.fault_line_undefined :
    ∃ token left, (Machine.start .unfailing).Ends (Parsed.ofSource "1;\na;").1.statements
        (some (Fault.undefined token)) left ∧
      token.line = 2 ∧ lineOf "1;\na;" token.span.start = 2 := by
  let token : Token := ⟨.identifier, "a", none, 2, ⟨3, 4⟩⟩
  obtain ⟨left, ends⟩ : ∃ left, (Machine.start .unfailing).Ends
      (Parsed.ofSource "1;\na;").1.statements (some (Fault.undefined token)) left :=
    ⟨_, 0, rfl⟩
  rcases Machine.Ends.fault_line ends with ⟨-, line⟩ | ⟨failure, cause, -⟩
  · exact ⟨token, left, ends, rfl, line.symm⟩
  · cases cause

/-- When `nil` cannot be printed, the fault tells a line that is none of the source. -/
theorem Machine.Ends.fault_line_literal :
    "print nil;".utf8ByteSize < Scanner.largest ∧ (Scan.ofSource "print nil;").errors = [] ∧
      (Parsed.ofSource "print nil;").1.errors = [] ∧
      (Machine.start (.failingAfter 0 .other)).environment.WellFormed ∧
      ¬ ∀ fault left, (Machine.start (.failingAfter 0 .other)).Ends
          (Parsed.ofSource "print nil;").1.statements (some fault) left →
        1 ≤ fault.token.line ∧
          fault.token.line = lineOf "print nil;" fault.token.span.start := by
  refine ⟨by decide, by rfl, by rfl, Environment.wellFormed_empty, fun lines => ?_⟩
  have refused := lines ⟨.outputFailed .other, ⟨.keyPrint, "print", none, 0, ⟨6, 9⟩⟩⟩ _ ⟨0, rfl⟩
  exact absurd refused.1 (by decide)

end TreeWalk
