import TreeWalk.Proofs.Syntax.Confinement
import TreeWalk.Proofs.Syntax.ExpressionRules

/-!
# Where rules note errors

A rule that goes on notes only wrong assignments.  The error is about the equals sign, but it is
noted when the value behind the sign has been read.  So the errors inside the value come first, and
apart from that the errors stand in the order of the tokens.  `Finding` keeps both places, and
`Logged` says for one run of a rule what was noted and where.
-/

set_option autoImplicit false

namespace TreeWalk

open Grammar (Reads continuing)
open TreeWalk.Parser (Passed Stops)
open Stateful (bind_eq_ok)

/-- Behind `front` stands an equals sign, and behind the sign its value: an assignment that goes on
for as long as it can. -/
structure Assigns (tokens front : List Token) (equals : Token) (value : List Token) : Prop where
  kind : equals.kind = .equal
  reads : ∃ expr noted, Reads .assignment value expr noted
  behind : ∃ rest, tokens = front ++ equals :: (value ++ rest) ∧ Stops (continuing .assignment) rest

/-- Two readings of the same tokens end at the same place. -/
theorem Assigns.unique {tokens front value other : List Token} {equals another : Token}
    (one : Assigns tokens front equals value) (two : Assigns tokens front another other) :
    value = other := by
  obtain ⟨-, ⟨expr, noted, reads⟩, rest, split, stops⟩ := one
  obtain ⟨-, ⟨expr', noted', reads'⟩, rest', split', stops'⟩ := two
  obtain ⟨-, same⟩ := List.cons.inj (List.append_cancel_left (split.symm.trans split'))
  -- the rule for expressions reads the one and the other, and it has one result
  have run := Grammar.expression_accepts (.expression reads)
    (Parser.ofTokens [] |>.after [] [] (value ++ rest)) rest rfl stops
  have run' := Grammar.expression_accepts (.expression reads')
    (Parser.ofTokens [] |>.after [] [] (value ++ rest)) rest' same stops'
  rw [run] at run'
  injection run' with _ after
  have left : rest = rest' := congrArg Parser.ahead after
  rw [left] at same
  exact List.append_cancel_right same

/-! ## Findings -/

/-- An error of a parse and the places that belong to it. -/
structure Finding where
  error : SyntaxError
  /-- Where the token stands that the error is about. -/
  place : Nat
  /-- How far the parser had come when it noted the error. -/
  stop : Nat

namespace Finding

/-- A wrong assignment, noted behind its value. -/
def Refused (tokens : List Token) (finding : Finding) : Prop :=
  ∃ front equals value, Assigns tokens front equals value ∧
    finding = ⟨⟨.invalidAssignmentTarget, equals⟩, front.length, front.length + 1 + value.length⟩

/-- An earlier finding lies in front of a later one or inside its value. -/
def Precedes (earlier later : Finding) : Prop :=
  earlier.stop ≤ later.place ∨ (later.place < earlier.place ∧ earlier.place < later.stop)

theorem Refused.place_lt_stop {tokens : List Token} {finding : Finding}
    (refused : finding.Refused tokens) : finding.place < finding.stop := by
  obtain ⟨front, equals, value, -, rfl⟩ := refused
  dsimp only
  omega

end Finding

open Finding (Refused Precedes)

structure Noted (first : Nat) (findings : List Finding) (last : Nat) : Prop where
  forward : first ≤ last
  inside : ∀ finding ∈ findings,
    first ≤ finding.place ∧ finding.place ≤ finding.stop ∧ finding.stop ≤ last
  order : findings.Pairwise Precedes

namespace Noted

theorem nil {first last : Nat} (forward : first ≤ last) : Noted first [] last :=
  ⟨forward, by simp, .nil⟩

theorem append {first middle last : Nat} {early late : List Finding}
    (before : Noted first early middle) (after : Noted middle late last) :
    Noted first (early ++ late) last := by
  have forward := before.forward
  have further := after.forward
  refine ⟨by omega, ?_, ?_⟩
  · intro finding member
    rcases List.mem_append.mp member with front | back
    · have := before.inside finding front
      omega
    · have := after.inside finding back
      omega
  · refine List.pairwise_append.mpr ⟨before.order, after.order, ?_⟩
    intro earlier front later back
    left
    have := before.inside earlier front
    have := after.inside later back
    omega

/-- A wrong assignment closes over what has been noted in its value. -/
theorem close {first last : Nat} {findings : List Finding}
    (value : Noted (first + 1) findings last)
    (nonempty : ∀ finding ∈ findings, finding.place < finding.stop) (error : SyntaxError) :
    Noted first (findings ++ [⟨error, first, last⟩]) last := by
  have forward := value.forward
  refine ⟨by omega, ?_, ?_⟩
  · intro finding member
    rcases List.mem_append.mp member with inner | outer
    · have := value.inside finding inner
      omega
    · obtain rfl := List.mem_singleton.mp outer
      dsimp only
      omega
  · refine List.pairwise_append.mpr ⟨value.order, List.pairwise_singleton _ _, ?_⟩
    intro earlier inner later outer
    obtain rfl := List.mem_singleton.mp outer
    right
    have := value.inside earlier inner
    have := nonempty earlier inner
    dsimp only
    omega

end Noted

structure Logged (before : Parser) (findings : List Finding) (after : Parser) : Prop where
  passed : ∃ read, Passed before read (findings.map Finding.error).reverse after
  refused : ∀ finding ∈ findings, finding.Refused before.tokens
  noted : Noted before.position findings after.position

namespace Logged

theorem silent {before after : Parser} {read : List Token} (passed : Passed before read [] after) :
    Logged before [] after := by
  refine ⟨⟨read, passed⟩, by simp, .nil ?_⟩
  rw [passed.position]
  omega

theorem refl (parser : Parser) : Logged parser [] parser := silent (.refl parser)

theorem trans {first second third : Parser} {early late : List Finding}
    (before : Logged first early second) (after : Logged second late third) :
    Logged first (early ++ late) third := by
  obtain ⟨read, passed⟩ := before.passed
  obtain ⟨again, moved⟩ := after.passed
  refine ⟨⟨read ++ again, ?_⟩, ?_, before.noted.append after.noted⟩
  · rw [List.map_append, List.reverse_append]
    exact passed.trans moved
  · intro finding member
    rcases List.mem_append.mp member with front | back
    · exact before.refused finding front
    · rw [← passed.tokens]
      exact after.refused finding back

end Logged

namespace Rule

variable {α β : Type}

/-! ## Where an expression ends -/

def StopsBefore (kinds : List Kind) (rule : Rule α) : Prop :=
  ∀ {before value after}, rule before = .ok value after → Stops kinds after.ahead

theorem length_ahead_of_ok {rule : Rule α} (confined : Confined rule) {before after : Parser}
    {value : α} (run : rule before = .ok value after) :
    after.ahead.length ≤ before.ahead.length := by
  obtain ⟨read, noted, passed⟩ := confined before
  rw [left_of_ok run] at passed
  rw [passed.ahead, List.length_append]
  omega

theorem chain_stopsBefore {kinds : List Kind} {rung : Rung} {operand : Rule Expr}
    (confined : Confined operand) (stops : StopsBefore kinds operand) {count : Nat} {left : Expr}
    {before after : Parser} {result : Expr} (front : Stops kinds before.ahead)
    (enough : before.ahead.length < count)
    (run : chain rung operand count left before = .ok result after) :
    Stops (rung.operators ++ kinds) after.ahead := by
  induction count generalizing left before with
  | zero => omega
  | succ count ih =>
      obtain ⟨accepted, middle, acceptRun, rest⟩ := bind_eq_ok.mp run
      rcases accept?_ok acceptRun with ⟨rfl, rfl⟩ | ⟨operator, rfl, -, passed⟩
      · cases rest
        intro token head member
        rcases List.mem_append.mp member with own | tighter
        · exact stops_of_accept? acceptRun token head own
        · exact front token head tighter
      · obtain ⟨right, last, rightRun, again⟩ := bind_eq_ok.mp rest
        have fewer := length_ahead_of_ok confined rightRun
        have taken := congrArg List.length passed.ahead
        rw [List.length_append, List.length_singleton] at taken
        exact ih (stops rightRun) (by omega) again

theorem climb_stopsBefore {operand : Rule Expr} (composed : Composed operand)
    (rungs : List Rung) :
    StopsBefore (rungs.flatMap Rung.operators) (climb rungs operand) := by
  induction rungs with
  | nil => exact fun _ => Parser.stops_nil _
  | cons rung tighter ih =>
      intro before result after run
      obtain ⟨left, middle, leftRun, continued⟩ := bind_eq_ok.mp run
      obtain ⟨count, same, boundRun, chainRun⟩ := bind_eq_ok.mp continued
      cases boundRun
      exact chain_stopsBefore (composed_climb composed tighter).confined ih (ih leftRun)
        (Nat.lt_succ_self _) chainRun

theorem assigned_ahead {target : Expr} {equals : Token} {value result : Expr}
    {before after : Parser} (run : assigned target equals value before = .ok result after) :
    after.ahead = before.ahead := by
  unfold assigned at run
  split at run <;> cases run <;> rfl

theorem expressionWithin_stopsBefore (depth : Nat) :
    StopsBefore (continuing .assignment) (expressionWithin depth) := by
  induction depth with
  | zero =>
      intro before result after run
      cases run
  | succ depth ih =>
      intro before result after run
      obtain ⟨target, middle, targetRun, behind⟩ := bind_eq_ok.mp run
      have front := climb_stopsBefore
        (Composed.bound.bind fun count =>
          composed_prefixed (composed_primary (composed_expressionWithin depth)) count)
        Rung.ladder targetRun
      obtain ⟨accepted, stop, acceptRun, chosen⟩ := bind_eq_ok.mp behind
      rcases accept?_ok acceptRun with ⟨rfl, rfl⟩ | ⟨equals, rfl, -, -⟩
      · cases chosen
        intro token head member
        rcases List.mem_cons.mp member with equal | operator
        · exact stops_of_accept? acceptRun token head (List.mem_singleton.mpr equal)
        · exact front token head operator
      · obtain ⟨value, last, valueRun, finish⟩ := bind_eq_ok.mp chosen
        rw [assigned_ahead finish]
        exact ih valueRun

/-! ## What a rule notes -/

theorem logged_assigned {target : Expr} {equals : Token} {value result : Expr}
    {before middle last after : Parser} {back : List Token} {noted : List SyntaxError}
    {findings : List Finding} (kind : equals.kind = .equal)
    (sign : Passed before [equals] [] middle) (inner : Logged middle findings last)
    (reads : Reads .assignment back value noted) (read : middle.ahead = back ++ last.ahead)
    (stops : Stops (continuing .assignment) last.ahead)
    (run : assigned target equals value last = .ok result after) :
    ∃ findings, Logged before findings after := by
  have outer := (Logged.silent sign).trans inner
  unfold assigned at run
  split at run
  · cases run
    exact ⟨_, outer⟩
  · cases run
    obtain ⟨tokens, passed⟩ := outer.passed
    have start : middle.position = before.position + 1 := sign.position
    have stop : last.position = before.position + 1 + back.length := by
      obtain ⟨again, moved⟩ := inner.passed
      have same : again = back := List.append_cancel_right (moved.ahead.symm.trans read)
      rw [moved.position, start, same]
    refine ⟨findings ++ [⟨⟨.invalidAssignmentTarget, equals⟩, before.position, last.position⟩],
      ⟨tokens, ?_⟩, ?_, ?_⟩
    · rw [List.map_append, List.reverse_append]
      have noting : Passed last [] [⟨.invalidAssignmentTarget, equals⟩]
          { last with errors := ⟨.invalidAssignmentTarget, equals⟩ :: last.errors } := ⟨rfl, rfl⟩
      simpa using passed.trans noting
    · intro finding member
      rcases List.mem_append.mp member with within | own
      · exact outer.refused finding within
      · obtain rfl := List.mem_singleton.mp own
        refine ⟨before.consumed.reverse, equals, back, ⟨kind, ⟨_, _, reads⟩, _, ?_, stops⟩, ?_⟩
        · unfold Parser.tokens
          rw [sign.ahead, read]
          rfl
        · rw [stop, List.length_reverse]
          rfl
    · have within := inner.noted
      rw [start] at within
      exact within.close (fun finding member => (inner.refused finding member).place_lt_stop) _

def Logs (rule : Rule α) : Prop :=
  ∀ {before : Parser}, before.ending.kind = .eof →
    ∃ findings, Logged before findings (left rule before)

theorem logs_stays {rule : Rule α} (stays : ∀ before, left rule before = before) : Logs rule := by
  intro before _
  rw [stays]
  exact ⟨[], .refl before⟩

theorem Logs.bind {first : Rule α} {next : α → Rule β} (early : Logs first)
    (late : ∀ value, Logs (next value)) : Logs (first >>= next) := by
  intro before last
  obtain ⟨findings, logged⟩ := early last
  cases run : first before with
  | ok value middle =>
      rw [left_of_ok run] at logged
      rw [left_bind_of_ok next run]
      obtain ⟨read, passed⟩ := logged.passed
      obtain ⟨later, more⟩ := late value (passed.last last)
      exact ⟨findings ++ later, logged.trans more⟩
  | error failure middle =>
      rw [left_of_error run] at logged
      rw [left_bind_of_error next run]
      exact ⟨findings, logged⟩

theorem logged_value {depth : Nat} {target : Expr} {equals : Token} {before middle : Parser}
    (inner : Logs (expressionWithin depth)) (last : before.ending.kind = .eof)
    (kind : equals.kind = .equal) (sign : Passed before [equals] [] middle) :
    ∃ findings, Logged before findings
      (left (expressionWithin depth >>= fun value => assigned target equals value) middle) := by
  obtain ⟨findings, logged⟩ := inner (sign.last last)
  cases valueRun : expressionWithin depth middle with
  | error failure stop =>
      rw [left_of_error valueRun] at logged
      rw [left_bind_of_error _ valueRun]
      exact ⟨_, (Logged.silent sign).trans logged⟩
  | ok value stop =>
      rw [left_of_ok valueRun] at logged
      rw [left_bind_of_ok _ valueRun]
      obtain ⟨back, noted, moved, reads⟩ :=
        Grammar.expressionWithin_describes depth _ _ _ (sign.last last) valueRun
      have stops := expressionWithin_stopsBefore depth valueRun
      cases finish : assigned target equals value stop with
      | error failure after => exact absurd finish assigned_not_error
      | ok result after =>
          rw [left_of_ok finish]
          exact logged_assigned kind sign logged reads moved.ahead stops finish

theorem logs_assignment {depth : Nat} (target : Expr) (inner : Logs (expressionWithin depth)) :
    Logs (assignment depth target) := by
  intro before last
  cases acceptRun : accept? [.equal] before with
  | error failure middle => exact absurd acceptRun accept?_not_error
  | ok accepted middle =>
      unfold assignment
      rw [left_bind_of_ok _ acceptRun]
      rcases accept?_ok acceptRun with ⟨rfl, rfl⟩ | ⟨equals, rfl, kind, sign⟩
      · exact ⟨[], .refl middle⟩
      · exact logged_value inner last (List.mem_singleton.mp kind) sign

theorem Composed.logs {rule : Rule α} (composed : Composed rule) : Logs rule := by
  induction composed with
  | pure | fail | peek | sees | bound => exact logs_stays fun _ => rfl
  | step =>
      intro before _
      obtain ⟨read, passed⟩ := passed_step before
      exact ⟨[], .silent passed⟩
  | accept? kinds =>
      intro before _
      obtain ⟨read, passed⟩ := passed_accept? kinds before
      exact ⟨[], .silent passed⟩
  | bind _ _ early late => exact early.bind late
  | assignment target _ ih => exact logs_assignment target ih

end Rule

end TreeWalk
