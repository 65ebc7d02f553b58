import TreeWalk.Proofs.Diagnosis.Origins
import TreeWalk.Proofs.Diagnosis.SourceParse
import TreeWalk.Proofs.Scanning.Lines
import TreeWalk.Proofs.Sessions.History

/-!
# Spans of reports

Spans are made by the scanner.  They are carried by tokens, by trees and by the token that is made
up for a literal, and none of these changes them.  So whatever a session reports, its span begins
and ends between characters of the source that it is reported with.
-/

set_option autoImplicit false

namespace TreeWalk

open Diagnostic (Problem Report)
open Scanner (Slice)

/-! ## Spans of a source -/

/-- The span begins and ends between characters of the source. -/
structure Span.Fits (span : Span) (source : String) : Prop where
  order : span.start ≤ span.stop
  within : span.stop ≤ source.utf8ByteSize
  startValid : (String.Pos.Raw.mk span.start).IsValid source
  stopValid : (String.Pos.Raw.mk span.stop).IsValid source

theorem Span.Fits.clamp {span : Span} {source : String} (fits : span.Fits source) :
    span.clamp source.utf8ByteSize = span := by
  have order := fits.order
  have within := fits.within
  rw [Span.clamp, Nat.min_eq_left (Nat.le_trans order within), Nat.min_eq_left within]

theorem Scanner.Slice.fits {source text : String} {span : Span} (slice : Slice source span text) :
    span.Fits source := by
  obtain ⟨before, after, rfl, start, stop⟩ := slice
  have size : (before ++ text).utf8ByteSize = before.utf8ByteSize + text.utf8ByteSize :=
    String.utf8ByteSize_append
  refine ⟨by omega, ?_, ?_, ?_⟩
  · rw [String.utf8ByteSize_append]
    omega
  · refine String.Pos.Raw.isValid_iff_exists_append.mpr ⟨before, text ++ after, ?_, ?_⟩
    · rw [String.append_assoc]
    · exact String.Pos.Raw.ext start
  · refine String.Pos.Raw.isValid_iff_exists_append.mpr ⟨before ++ text, after, rfl, ?_⟩
    exact String.Pos.Raw.ext (stop.trans size.symm)

theorem Scan.span_fits {source : String} {span : Span}
    (member : span ∈ (Scan.ofSource source).tokens.map Token.span) : span.Fits source := by
  obtain ⟨token, found, rfl⟩ := List.mem_map.mp member
  exact (Scanner.tokens_slice source token found).fits

/-! ## Spans of trees -/

/-- The spans of names and operators, and those that literals have kept. -/
def Expr.spans (expr : Expr) : List Span := expr.gathered Token.span fun span => [span]

theorem Expr.map_span_tokens (expr : Expr) : (expr.tokens.map Token.span).Sublist expr.spans := by
  induction expr with
  | literal value span => exact List.nil_sublist _
  | grouping inner ih => exact ih
  | unary operator right ih => exact ih.cons_cons _
  | binary left operator right leftIh rightIh | logical left operator right leftIh rightIh =>
      rw [Expr.tokens, List.map_append, List.map_cons]
      exact leftIh.append (rightIh.cons_cons _)
  | reference name => exact List.Sublist.refl _
  | assign name value ih => exact ih.cons_cons _

theorem Expr.printToken_span (expr : Expr) : expr.printToken.span ∈ expr.spans := by
  induction expr with
  | literal value span => exact List.mem_singleton_self span
  | grouping inner ih => exact ih
  | unary operator right => exact List.mem_cons_self
  | binary left operator right | logical left operator right =>
      exact List.mem_append_right _ List.mem_cons_self
  | reference name => exact List.mem_singleton_self name.span
  | assign name value => exact List.mem_cons_self

theorem Occurrence.Raises.span {occurrence : Occurrence} {fault : Fault}
    (raises : occurrence.Raises fault) : fault.token.span ∈ occurrence.expr.spans := by
  rcases raises with ⟨start, left, run⟩ | ⟨-, failure, rfl⟩
  · exact occurrence.expr.map_span_tokens.subset
      (List.mem_map_of_mem (Expr.evaluate_raises run))
  · exact occurrence.expr.printToken_span

theorem Grammar.Origin.spans_sublist {tokens : List Token} {expr : Expr}
    (origin : Origin tokens expr) : expr.spans.Sublist (tokens.map Token.span) :=
  origin.gathered_sublist fun token => List.Sublist.refl [token.span]

/-! ## Problems -/

theorem Machine.Ends.span_mem {source : String} {machine left : Machine} {fault : Fault}
    (ends : machine.Ends (programOf source) (some fault) left) :
    fault.token.span ∈ (Scan.ofSource source).tokens.map Token.span := by
  obtain ⟨occurrence, among, raises⟩ := ends.raised
  exact (Parsed.origins_ofTokens _ occurrence among).spans_sublist.subset raises.span

theorem problemsOf_fits {source : String} {problem : Problem}
    (member : problem ∈ problemsOf source) : problem.span.Fits source := by
  rcases List.mem_append.mp member with lexical | grammatical
  · obtain ⟨error, found, rfl⟩ := List.mem_map.mp lexical
    obtain ⟨text, slice, -⟩ := Scanner.mistake_line found
    exact slice.fits
  · obtain ⟨error, found, rfl⟩ := List.mem_map.mp grammatical
    exact Scan.span_fits (List.mem_map_of_mem (Parsed.token_of_error found))

namespace Session

theorem History.answers {first last : Session} {calls : List Call}
    (history : History first calls last) :
    ∀ call ∈ calls, call.before.Answers call.source call.status call.after := by
  induction history with
  | none => exact List.forall_mem_nil _
  | call _ answers _ ih => exact List.forall_mem_cons.mpr ⟨answers, ih⟩

theorem emits_fits_of_answers {session after : Session} {source : String} {status : Status}
    (answers : session.Answers source status after) :
    ∃ problems : List Problem, session.Emits (problems.map (.inSource session.path source)) after ∧
      ∀ problem ∈ problems, problem.span.Fits source := by
  by_cases sound : problemsOf source = []
  · obtain ⟨result, left, ends, -, emits, -⟩ := ends_of_answers sound answers
    cases result with
    | none => exact ⟨[], emits, List.forall_mem_nil _⟩
    | some fault =>
        have fits : fault.token.span.Fits source := Scan.span_fits ends.span_mem
        exact ⟨[.runtime fault], emits, List.forall_mem_singleton.mpr fits⟩
  · obtain ⟨-, emits, -⟩ := rejected_of_answers sound answers
    exact ⟨problemsOf source, emits, fun _ => problemsOf_fits⟩

/-- Whatever the calls on a session report, each of their reports shows the source of its call, its
span begins and ends between characters of that source, and clamping it changes nothing. -/
theorem history_spans {first last : Session} {calls : List Call}
    (history : History first calls last) :
    ∀ call ∈ calls, ∃ problems : List Problem,
      call.before.Emits (problems.map (.inSource call.before.path call.source)) call.after ∧
      ∀ problem ∈ problems, problem.span.Fits call.source ∧
        problem.span.clamp call.source.utf8ByteSize = problem.span := by
  intro call member
  obtain ⟨problems, emits, fits⟩ := emits_fits_of_answers (history.answers call member)
  exact ⟨problems, emits, fun problem found => ⟨fits problem found, (fits problem found).clamp⟩⟩

/-- Two characters that begin no token, and a literal that the sink refuses. -/
theorem history_spans_refused :
    ∃ calls last, History (start .keeping (.failingAfter 0 .other)) calls last ∧
      calls.map Call.source = ["é@", "print nil;"] ∧
      (∀ call ∈ calls, ∃ problems : List Problem,
        call.before.Emits (problems.map (.inSource call.before.path call.source)) call.after ∧
        ∀ problem ∈ problems, problem.span.Fits call.source ∧
          problem.span.clamp call.source.utf8ByteSize = problem.span) ∧
      last.reported.length = 3 := by
  obtain ⟨one, rejected, lexical, same⟩ :=
    (start .keeping (.failingAfter 0 .other)).run_of_problems
      (show problemsOf "é@" ≠ [] by decide +kernel)
  obtain ⟨left, failed⟩ : ∃ left, Machine.interpret 0 (programOf "print nil;") one.machine =
      Execution.finished left
        (some ⟨.outputFailed .other, ⟨.keyPrint, "print", none, 0, ⟨6, 9⟩⟩⟩) := by
    rw [same, show programOf "print nil;" = [.print (.literal .nil ⟨6, 9⟩)] from rfl]
    exact ⟨_, rfl⟩
  obtain ⟨two, faulted, emits, -⟩ := run_of_finished (by decide +kernel) failed
  have history : History (start .keeping (.failingAfter 0 .other))
      [⟨_, "é@", .rejected, one⟩, ⟨one, "print nil;", .faulted, two⟩] two :=
    .call (by decide) ⟨0, rejected 0⟩ (.call (by decide) ⟨0, faulted⟩ (.none two))
  have count : (problemsOf "é@").length = 2 := by decide +kernel
  refine ⟨_, two, history, rfl, history_spans history, ?_⟩
  rw [emits.reported, lexical.reported, List.length_append, List.length_append, List.length_map,
    count]
  rfl

end Session

end TreeWalk
