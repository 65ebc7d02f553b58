import TreeWalk.Proofs.Syntax.Mirrors

/-!
# Phrases under a cursor

The actions of a cursor mirror the rules for expressions and statements, provided that their
rounds are above the number of tokens ahead.  A nesting begins behind a token and a loop goes on
behind one, so one round is spent for at least one token.
-/

set_option autoImplicit false

namespace TreeWalk

open Cursor (Action)
open TreeWalk.Parser (Passed)

variable {α β : Type} {bound : Nat}

/-- The action mirrors the rule wherever fewer tokens than the bound are ahead. -/
def Reflects (bound : Nat) (action : Action α) (rule : Rule α) : Prop :=
  ∀ parser : Parser, parser.Sound → parser.ahead.length < bound → Mirrors parser action rule

/-- A rule that succeeds has consumed a token. -/
def Gains (rule : Rule α) : Prop :=
  ∀ parser value after, parser.Sound → rule parser = .ok value after →
    after.ahead.length < parser.ahead.length

namespace Reflects

theorem zero (action : Action α) (rule : Rule α) : Reflects 0 action rule :=
  fun _ _ none => absurd none (Nat.not_lt_zero _)

theorem mono {fewer : Nat} {action : Action α} {rule : Rule α}
    (reflects : Reflects bound action rule) (le : fewer ≤ bound) : Reflects fewer action rule :=
  fun parser sound few => reflects parser sound (Nat.lt_of_lt_of_le few le)

theorem after {action : Action α} {rule : Rule α} {next : Action β} {rest : Rule β}
    {parser middle : Parser} {value : α} (mirrors : Mirrors parser action rule)
    (run : rule parser = .ok value middle) (sound : parser.Sound)
    (few : parser.ahead.length < bound) (late : Reflects bound next rest) :
    Mirrors middle next rest := by
  obtain ⟨read, noted, passed⟩ := mirrors.passed
  rw [Rule.left_of_ok run] at passed
  exact late middle (passed.sound sound) (Nat.lt_of_le_of_lt passed.length_ahead_le few)

theorem pure (value : α) : Reflects bound (Pure.pure value) (Pure.pure value) :=
  fun _ _ _ => .pure value

theorem bind {action : Action α} {rule : Rule α} {next : α → Action β} {rest : α → Rule β}
    (early : Reflects bound action rule) (late : ∀ value, Reflects bound (next value) (rest value)) :
    Reflects bound (action >>= next) (rule >>= rest) := by
  intro parser sound few
  have first := early parser sound few
  exact first.bind fun value middle run => after first run sound few (late value)

theorem map (change : α → β) {action : Action α} {rule : Rule α}
    (reflects : Reflects bound action rule) :
    Reflects bound (change <$> action) (change <$> rule) := by
  rw [map_eq_pure_bind, map_eq_pure_bind]
  exact reflects.bind fun value => pure (change value)

theorem gaining {action : Action α} {rule : Rule α} {next : α → Action β} {rest : α → Rule β}
    (gains : Gains rule) (early : Reflects (bound + 1) action rule)
    (late : ∀ value, Reflects bound (next value) (rest value)) :
    Reflects (bound + 1) (action >>= next) (rule >>= rest) := by
  intro parser sound few
  have first := early parser sound few
  apply first.bind
  intro value middle run
  obtain ⟨read, noted, passed⟩ := first.passed
  rw [Rule.left_of_ok run] at passed
  have fewer := gains parser value middle sound run
  exact late value middle (passed.sound sound) (by omega)

theorem bounded {action : Action α} {rest : Nat → Rule α}
    (each : ∀ count ≤ bound, Reflects count action (rest count)) :
    Reflects bound action (Rule.bound >>= rest) := by
  intro parser sound few
  have late := each (parser.ahead.length + 1) few parser sound (Nat.lt_succ_self _)
  exact .along rfl (.refl parser) (fun _ _ => rfl) late

theorem expect (kind : Kind) (context : String) :
    Reflects bound (Cursor.expectOne kind context) (Rule.expect kind context) :=
  fun _ sound _ => .expect sound kind context

theorem expectName : Reflects bound Cursor.expectIdent Rule.expectName :=
  fun _ sound _ => .expectName sound

theorem sees (kind : Kind) : Reflects bound (Cursor.check kind) (Rule.sees kind) :=
  fun _ sound _ => .sees sound kind

theorem peek : Reflects bound Cursor.peek Rule.peek := fun _ _ _ => .peek

theorem note (error : SyntaxError) : Reflects bound (Cursor.note error) (Rule.note error) :=
  fun _ _ _ => .note error

section Choice

variable {kinds : List Kind} {absent : Action α} {rest : Option Token → Rule α}
variable (left : Reflects bound absent (rest none))

include left

theorem choice {present : Action α}
    (taken : ∀ fewer < bound, ∀ token, Reflects fewer present (rest (some token))) :
    Reflects bound (Cursor.accepts kinds >>= fun found => if found then present else absent)
      (Rule.accept? kinds >>= rest) := by
  intro parser sound few
  refine .choice sound (fun token middle run => ?_) (left parser sound few)
  have passed := Mirrors.passed_accepted run
  exact taken _ few token middle (passed.sound sound) passed.length_ahead_lt

theorem operator {present : Token → Action α}
    (taken : ∀ fewer < bound, ∀ token, Reflects fewer (present token) (rest (some token))) :
    Reflects bound
      (Cursor.accepts kinds >>= fun found =>
        if found then Cursor.previous >>= present else absent)
      (Rule.accept? kinds >>= rest) := by
  intro parser sound few
  refine .choice sound (fun token middle run => .previous run ?_) (left parser sound few)
  have passed := Mirrors.passed_accepted run
  exact taken _ few token middle (passed.sound sound) passed.length_ahead_lt

end Choice

/-! ## Expressions -/

section Operand

variable {action : Action Expr} {operand : Rule Expr}

theorem chain (rung : Rung) (reflects : Reflects bound action operand) {limit count : Nat}
    (enough : bound ≤ limit) (enough' : bound ≤ count) (left : Expr) :
    Reflects bound (Cursor.chain rung action limit left) (Rule.chain rung operand count left) := by
  induction bound generalizing limit count left with
  | zero => exact zero _ _
  | succ bound ih =>
      obtain ⟨limit, rfl⟩ := Nat.exists_eq_add_of_le' enough
      obtain ⟨count, rfl⟩ := Nat.exists_eq_add_of_le' enough'
      have inner := reflects.mono (Nat.le_succ bound)
      refine operator (.pure left) fun fewer lt token => mono ?_ (Nat.le_of_lt_succ lt)
      exact inner.bind fun right => ih inner (Nat.le_add_left ..) (Nat.le_add_left ..) _

theorem climb {limit : Nat} (enough : bound ≤ limit) (reflects : Reflects bound action operand)
    (rungs : List Rung) :
    Reflects bound (Cursor.climb limit rungs action) (Rule.climb rungs operand) := by
  induction rungs with
  | nil => exact reflects
  | cons rung tighter ih =>
      refine ih.bind fun left => bounded fun count le => ?_
      exact chain rung (ih.mono le) (Nat.le_trans le enough) (Nat.le_refl _) left

theorem prefixed (reflects : Reflects bound action operand) {limit count : Nat}
    (enough : bound ≤ limit) (enough' : bound ≤ count) :
    Reflects bound (Cursor.unary action limit) (Rule.prefixed operand count) := by
  induction bound generalizing limit count with
  | zero => exact zero _ _
  | succ bound ih =>
      obtain ⟨limit, rfl⟩ := Nat.exists_eq_add_of_le' enough
      obtain ⟨count, rfl⟩ := Nat.exists_eq_add_of_le' enough'
      have inner := reflects.mono (Nat.le_succ bound)
      refine operator reflects fun fewer lt token => mono ?_ (Nat.le_of_lt_succ lt)
      exact (ih inner (Nat.le_add_left ..) (Nat.le_add_left ..)).bind fun right => .pure _

end Operand

theorem primary {inner : Action Expr} {rule : Rule Expr} (reflects : Reflects bound inner rule) :
    Reflects (bound + 1) (Cursor.primary inner) (Rule.primary rule) := by
  intro parser sound few
  apply Mirrors.peek.bind
  intro token middle run
  cases run
  cases found : Rule.leafValue? parser.next with
  | some value => exact (Mirrors.step sound).bind fun _ _ _ => .pure _
  | none =>
      generalize same : parser.next.kind = kind
      cases kind with
      | identifier => exact (Mirrors.step sound).bind fun _ _ _ => .pure _
      | leftParen =>
          apply (Mirrors.step sound).bind
          intro _ middle run
          cases run
          obtain ⟨rest, ahead⟩ := Rule.next_ahead sound.last (by simp [same])
          have passed := Passed.step ahead
          have fewer := passed.length_ahead_lt
          have inside := reflects.bind fun expr => (expect .rightParen "after expression").bind
            fun _ => pure (Expr.grouping expr)
          exact inside parser.step (passed.sound sound) (by omega)
      | _ => exact .stays rfl fun _ _ => rfl

theorem assigned (target : Expr) (equals : Token) (value : Expr) :
    Reflects bound (Cursor.assigned target equals value) (Rule.assigned target equals value) := by
  unfold Cursor.assigned Rule.assigned
  cases target with
  | reference name => exact pure _
  | _ => exact (note _).bind fun _ => pure _

theorem expressionWithin {limit depth depth' : Nat} (wide : bound ≤ limit) (deep : bound ≤ depth)
    (deep' : bound ≤ depth') :
    Reflects bound (Cursor.assignment limit depth) (Rule.expressionWithin depth') := by
  induction bound generalizing depth depth' with
  | zero => exact zero _ _
  | succ bound ih =>
      obtain ⟨depth, rfl⟩ := Nat.exists_eq_add_of_le' deep
      obtain ⟨depth', rfl⟩ := Nat.exists_eq_add_of_le' deep'
      have inner : Reflects bound (Cursor.assignment limit _) (Rule.expressionWithin _) :=
        ih (Nat.le_of_succ_le wide) (Nat.le_add_left bound depth) (Nat.le_add_left bound depth')
      have operand := bounded fun count le =>
        prefixed ((primary inner).mono le) (Nat.le_trans le wide) (Nat.le_refl count)
      apply (climb wide operand Rung.ladder).bind
      intro target
      refine operator (.pure target) fun fewer lt equals => mono ?_ (Nat.le_of_lt_succ lt)
      exact inner.bind fun value => assigned _ _ _

theorem expression {limit : Nat} (wide : bound ≤ limit) :
    Reflects bound (Cursor.expression limit) Rule.expression :=
  bounded fun _ le =>
    expressionWithin (Nat.le_trans le wide) (Nat.le_trans le wide) (Nat.le_refl _)

/-! ## Statements -/

section Wide

variable {limit : Nat} (wide : bound ≤ limit)

include wide

theorem expressionStatement :
    Reflects bound (Cursor.expressionStatement limit) Rule.expressionStatement :=
  (expression wide).bind fun _ => (expect _ _).bind fun _ => pure _

theorem printStatement : Reflects bound (Cursor.printStatement limit) Rule.printStatement :=
  (expression wide).bind fun _ => (expect _ _).bind fun _ => pure _

theorem variableDeclaration :
    Reflects bound (Cursor.variableDeclaration limit) Rule.variableDeclaration := by
  have close (name : Token) (initializer : Option Expr) :
      Reflects bound
        (Cursor.expectOne .semicolon "after variable declaration" >>= fun _ =>
          Pure.pure (Stmt.var name initializer))
        (Rule.expect .semicolon "after variable declaration" >>= fun _ =>
          Pure.pure (Stmt.var name initializer)) :=
    (expect _ _).bind fun _ => pure _
  refine expectName.bind fun name => choice ((pure none).bind (close name)) ?_
  intro fewer lt _
  refine mono ?_ (Nat.le_of_lt lt)
  exact (expression wide).bind fun value => (pure (some value)).bind (close name)

theorem optionalClause (endsWith : Kind) (context : String) :
    Reflects bound (Cursor.optionalClause limit endsWith context)
      (Rule.optionalClause endsWith context) := by
  apply (sees endsWith).bind
  intro absent
  cases absent with
  | true => exact (pure none).bind fun _ => (expect _ _).bind fun _ => pure _
  | false =>
      exact ((expression wide).map some).bind fun _ => (expect _ _).bind fun _ => pure _

theorem forInitializer : Reflects bound (Cursor.forInitializer limit) Rule.forInitializer := by
  intro parser sound few
  refine .looking ?_
  cases run : Rule.accept? [.semicolon, .keyVar] parser with
  | error failure middle => exact absurd run Rule.accept?_not_error
  | ok accepted middle =>
    cases accepted with
    | none =>
        have other := Rule.next_of_declined sound (by decide) run
        have plain := (expressionStatement wide).map some parser sound few
        refine .declined run ?_
        split
        · next same => simp [same] at other
        · next same => simp [same] at other
        · exact plain
    | some token =>
        obtain ⟨rest, ahead, member, step⟩ := Rule.accept?_some run
        have passed := Mirrors.passed_accepted run
        have late := (variableDeclaration wide).map some middle (passed.sound sound)
          (Nat.lt_trans passed.length_ahead_lt few)
        rw [Parser.next_of_ahead ahead]
        simp only [List.mem_cons, List.not_mem_nil, or_false] at member
        rcases member with same | same
        · simp only [same]
          exact .stepped sound run (by simpa [same] using .pure none)
        · simp only [same]
          exact .stepped sound run (by simpa [same] using late)

variable {action : Action Stmt} {statement : Rule Stmt}
variable (nested : Reflects bound action statement)

include nested

theorem declaration :
    Reflects bound (Cursor.declaration limit action) (Rule.declaration statement) :=
  choice nested fun _ lt _ => (variableDeclaration wide).mono (Nat.le_of_lt lt)

theorem declarations (gains : Gains (Rule.declaration statement)) {rounds count : Nat}
    (enough : bound ≤ rounds) (enough' : bound ≤ count) :
    Reflects bound (Cursor.declarations limit action rounds)
      (Rule.declarations statement count) := by
  induction bound generalizing rounds count with
  | zero => exact zero _ _
  | succ bound ih =>
      obtain ⟨rounds, rfl⟩ := Nat.exists_eq_add_of_le' enough
      obtain ⟨count, rfl⟩ := Nat.exists_eq_add_of_le' enough'
      have inner := nested.mono (Nat.le_succ bound)
      apply (sees .rightBrace).bind
      intro closing
      apply peek.bind
      intro token
      split
      · exact pure []
      · refine gaining gains (declaration wide nested) fun first => ?_
        exact (ih (Nat.le_of_succ_le wide) inner (Nat.le_add_left ..) (Nat.le_add_left ..)).bind
          fun rest => pure _

theorem blockBody (gains : Gains (Rule.declaration statement)) :
    Reflects bound (Cursor.blockBody limit action) (Rule.blockBody statement) := by
  refine bounded fun count le => ?_
  have enough := Nat.le_trans le wide
  exact (declarations enough (nested.mono le) gains enough (Nat.le_refl count)).bind
    fun body => (expect _ _).bind fun _ => pure body

theorem ifStatement :
    Reflects bound (Cursor.ifStatement limit action) (Rule.ifStatement statement) := by
  refine (expect _ _).bind fun _ => (expression wide).bind fun condition =>
    (expect _ _).bind fun _ => nested.bind fun onTrue => choice ?_ fun fewer lt _ => ?_
  · exact pure _
  · exact (nested.mono (Nat.le_of_lt lt)).bind fun onFalse => pure _

theorem whileStatement :
    Reflects bound (Cursor.whileStatement limit action) (Rule.whileStatement statement) :=
  (expect _ _).bind fun _ => (expression wide).bind fun _ => (expect _ _).bind fun _ =>
    nested.bind fun _ => pure _

theorem forClauses (keyword : Token) :
    Reflects bound (Cursor.forClauses limit action keyword)
      (Rule.forStatement statement keyword) :=
  (expect _ _).bind fun _ => (forInitializer wide).bind fun _ =>
    (optionalClause wide _ _).bind fun _ => (optionalClause wide _ _).bind fun _ =>
      nested.bind fun _ => pure _

end Wide

theorem gains_declaration (depth : Nat) :
    Gains (Rule.declaration (Rule.statementWithin depth)) := by
  intro parser value after sound run
  obtain ⟨read, noted, passed, reads⟩ :=
    Grammar.declaration_describes (Grammar.statementWithin_reads depth) _ _ _ sound.last run
  obtain ⟨token, others, rfl, -⟩ := reads.starts
  exact passed.length_ahead_lt

theorem statementWithin {limit depth depth' : Nat} (wide : bound ≤ limit) (deep : bound ≤ depth)
    (deep' : bound ≤ depth') :
    Reflects bound (Cursor.statementWithin limit depth) (Rule.statementWithin depth') := by
  induction bound generalizing depth depth' with
  | zero => exact zero _ _
  | succ bound ih =>
      obtain ⟨depth, rfl⟩ := Nat.exists_eq_add_one_of_ne_zero (show depth ≠ 0 by omega)
      obtain ⟨depth', rfl⟩ := Nat.exists_eq_add_one_of_ne_zero (show depth' ≠ 0 by omega)
      have narrow := Nat.le_of_succ_le wide
      have nested : Reflects bound (Cursor.statementWithin limit _) (Rule.statementWithin _) :=
        ih narrow (Nat.le_of_succ_le_succ deep) (Nat.le_of_succ_le_succ deep')
      intro parser sound few
      refine .looking ?_
      cases run : Rule.accept? [.keyPrint, .leftBrace, .keyIf, .keyWhile, .keyFor] parser with
      | error failure middle => exact absurd run Rule.accept?_not_error
      | ok accepted middle =>
        cases accepted with
        | none =>
            have other := Rule.next_of_declined sound (by decide) run
            have plain := expressionStatement wide parser sound few
            refine .declined run ?_
            generalize parser.next.kind = kind at other
            split
            · simp at other
            · simp at other
            · simp at other
            · simp at other
            · simp at other
            · exact plain
        | some token =>
            obtain ⟨rest, ahead, member, step⟩ := Rule.accept?_some run
            have passed := Mirrors.passed_accepted run
            have behind {action : Action Stmt} {rule : Rule Stmt}
                (reflects : Reflects bound action rule) : Mirrors middle action rule :=
              reflects middle (passed.sound sound)
                (Nat.lt_of_lt_of_le passed.length_ahead_lt (Nat.le_of_lt_succ few))
            rw [Parser.next_of_ahead ahead]
            simp only [List.mem_cons, List.not_mem_nil, or_false] at member
            rcases member with same | same | same | same | same
            · have late := behind (printStatement narrow)
              simp only [same]
              exact .stepped sound run (by simpa only [same] using late)
            · have late := behind ((blockBody narrow nested (gains_declaration depth')).map .block)
              simp only [same]
              exact .stepped sound run (by simpa only [same] using late)
            · have late := behind (ifStatement narrow nested)
              simp only [same]
              exact .stepped sound run (by simpa only [same] using late)
            · have late := behind (whileStatement narrow nested)
              simp only [same]
              exact .stepped sound run (by simpa only [same] using late)
            · have late : Mirrors middle (Cursor.forStatement limit _) _ :=
                .previous run (behind (forClauses narrow nested token))
              simp only [same]
              exact .stepped sound run (by simpa only [same] using late)

theorem topDeclaration {limit : Nat} (wide : bound ≤ limit) :
    Reflects bound (Cursor.topDeclaration limit) Rule.topDeclaration := by
  refine bounded fun count le => ?_
  have enough := Nat.le_trans le wide
  exact declaration enough (statementWithin enough enough (Nat.le_refl count))

end Reflects

end TreeWalk
