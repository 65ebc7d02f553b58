import TreeWalk.Proofs.Syntax.Composition

/-!
# What no rule can do

Whether a rule succeeds or fails, the parser it leaves has passed tokens and noted errors and is
otherwise the one it was given.  So a failed declaration keeps the end token and all earlier
errors, and recovery starts from a place further on in the same tokens.  The error of a failed
rule is about the token in front of which the rule stopped.
-/

set_option autoImplicit false

namespace TreeWalk

open TreeWalk.Parser (Passed)
open Stateful (bind_eq_error bind_of_error bind_of_ok)

namespace Parser

/-! ## Places -/

theorem Passed.tokens {before after : Parser} {read : List Token} {noted : List SyntaxError}
    (passed : Passed before read noted after) : after.tokens = before.tokens := by
  unfold Parser.tokens
  rw [passed.ahead, passed.state]
  simp [Parser.after]

theorem Passed.position {before after : Parser} {read : List Token} {noted : List SyntaxError}
    (passed : Passed before read noted after) :
    after.position = before.position + read.length := by
  unfold Parser.position
  rw [passed.state]
  simp [Parser.after, Nat.add_comm]

end Parser

namespace Rule

variable {α β : Type}

/-- The parser that a rule leaves behind, also when it fails. -/
def left (rule : Rule α) (before : Parser) : Parser :=
  match rule before with
  | .ok _ after | .error _ after => after

/-- A rule only passes tokens and notes errors. -/
def Confined (rule : Rule α) : Prop :=
  ∀ before, ∃ read noted, Passed before read noted (left rule before)

theorem left_of_ok {rule : Rule α} {before after : Parser} {value : α}
    (run : rule before = .ok value after) : left rule before = after := by
  unfold left
  rw [run]

theorem left_of_error {rule : Rule α} {before after : Parser} {error : SyntaxError}
    (run : rule before = .error error after) : left rule before = after := by
  unfold left
  rw [run]

theorem left_bind_of_ok {first : Rule α} {before middle : Parser} {value : α} (next : α → Rule β)
    (run : first before = .ok value middle) :
    left (first >>= next) before = left (next value) middle := by
  unfold left
  rw [bind_of_ok next run]

theorem left_bind_of_error {first : Rule α} {before after : Parser} {error : SyntaxError}
    (next : α → Rule β) (run : first before = .error error after) :
    left (first >>= next) before = after :=
  left_of_error (bind_of_error next run)

theorem Confined.bind {first : Rule α} {next : α → Rule β} (early : Confined first)
    (late : ∀ value, Confined (next value)) : Confined (first >>= next) := by
  intro before
  obtain ⟨read, noted, passed⟩ := early before
  cases run : first before with
  | ok value middle =>
      rw [left_of_ok run] at passed
      obtain ⟨again, later, moved⟩ := late value middle
      rw [left_bind_of_ok next run]
      exact ⟨_, _, passed.trans moved⟩
  | error failure middle =>
      rw [left_of_error run] at passed
      rw [left_bind_of_error next run]
      exact ⟨read, noted, passed⟩

theorem confined_stays {rule : Rule α} (stays : ∀ before, left rule before = before) :
    Confined rule := by
  intro before
  rw [stays]
  exact ⟨[], [], .refl before⟩

theorem confined_note (error : SyntaxError) : Confined (note error) :=
  fun _ => ⟨[], [error], rfl, rfl⟩

theorem passed_step (parser : Parser) : ∃ read, Passed parser read [] parser.step := by
  cases ahead : parser.ahead with
  | nil =>
      have stays : parser.step = parser := by simp [Parser.step, ahead]
      rw [stays]
      exact ⟨[], .refl parser⟩
  | cons token rest => exact ⟨[token], .step ahead⟩

theorem accept?_not_error {kinds : List Kind} {before after : Parser} {error : SyntaxError} :
    accept? kinds before ≠ .error error after := by
  intro run
  unfold accept? at run
  split at run
  · cases run
  · split at run <;> cases run

theorem passed_accept? (kinds : List Kind) (before : Parser) :
    ∃ read, Passed before read [] (left (accept? kinds) before) := by
  cases run : accept? kinds before with
  | ok accepted after =>
      rw [left_of_ok run]
      rcases accept?_ok run with ⟨-, rfl⟩ | ⟨token, -, -, passed⟩
      · exact ⟨[], .refl after⟩
      · exact ⟨[token], passed⟩
  | error failure after => exact absurd run accept?_not_error

theorem confined_accept? (kinds : List Kind) : Confined (accept? kinds) := by
  intro before
  obtain ⟨read, passed⟩ := passed_accept? kinds before
  exact ⟨read, [], passed⟩

theorem confined_assigned (target : Expr) (equals : Token) (value : Expr) :
    Confined (assigned target equals value) := by
  unfold assigned
  split
  · exact confined_stays fun _ => rfl
  · exact (confined_note _).bind fun _ => confined_stays fun _ => rfl

theorem Composed.confined {rule : Rule α} (composed : Composed rule) : Confined rule := by
  induction composed with
  | pure | fail | peek | sees | bound => exact confined_stays fun _ => rfl
  | step =>
      intro before
      obtain ⟨read, passed⟩ := passed_step before
      exact ⟨read, [], passed⟩
  | accept? kinds => exact confined_accept? kinds
  | bind _ _ early late => exact early.bind late
  | assignment target _ ih =>
      refine (confined_accept? [.equal]).bind fun accepted => ?_
      cases accepted with
      | none => exact confined_stays fun _ => rfl
      | some equals => exact ih.bind fun value => confined_assigned target equals value

theorem confined_topDeclaration : Confined topDeclaration := composed_topDeclaration.confined

/-! ## Failures -/

theorem assigned_not_error {target : Expr} {equals : Token} {value : Expr}
    {before after : Parser} {error : SyntaxError} :
    assigned target equals value before ≠ .error error after := by
  intro run
  unfold assigned at run
  split at run <;> cases run

/-- A rule fails at the token that comes next, and never because of an assignment. -/
theorem Composed.blames {rule : Rule α} (composed : Composed rule) {before after : Parser}
    {error : SyntaxError} (run : rule before = .error error after) :
    error.token = after.next ∧ error.cause ≠ .invalidAssignmentTarget := by
  induction composed generalizing before with
  | pure | peek | step | sees | bound => cases run
  | fail stops =>
      cases run
      exact ⟨rfl, stops⟩
  | accept? kinds => exact absurd run accept?_not_error
  | bind _ _ early late =>
      rcases bind_eq_error.mp run with failed | ⟨value, middle, -, failed⟩
      · exact early failed
      · exact late value failed
  | assignment target _ ih =>
      rcases bind_eq_error.mp run with failed | ⟨accepted, middle, -, rest⟩
      · exact absurd failed accept?_not_error
      · cases accepted with
        | none => cases rest
        | some equals =>
            rcases bind_eq_error.mp rest with failed | ⟨value, last, -, failed⟩
            · exact ih failed
            · exact absurd failed assigned_not_error

end Rule

end TreeWalk
