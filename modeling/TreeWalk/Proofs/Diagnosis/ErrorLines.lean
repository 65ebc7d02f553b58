import TreeWalk.Proofs.Diagnosis.SourceParse
import TreeWalk.Proofs.Scanning.Lines

/-!
# Lines and spans of compile-time errors

A report tells the line of an error in its short form and points at the error's span in a snippet.
Both agree for every syntax error and for every unexpected character.  A string without end is told
on the line on which the source ends, and its span begins with the quotation mark; so the two
agree exactly when no line break comes behind that mark.
-/

set_option autoImplicit false

namespace TreeWalk

open Scanner (Slice)

theorem Parsed.error_line {source : String} {error : SyntaxError}
    (member : error ∈ (Parsed.ofSource source).1.errors) :
    error.token.line = lineOf source error.token.span.start :=
  Scanner.token_line (Parsed.token_of_error member)

namespace Diagnostic

section Snippets

variable {source : String}

theorem lineAt_mistake {error : LexicalError} (member : error ∈ (Scan.ofSource source).errors)
    (ended : error.cause ≠ .unterminatedString) :
    lineAt (sourceLines source) error.span.start + 1 = error.line := by
  obtain ⟨text, -, -, agrees, unbroken⟩ := Scanner.mistake_line member
  rw [lineAt_sourceLines, agrees.mpr (unbroken ended)]

theorem lineAt_error {error : SyntaxError} (member : error ∈ (Parsed.ofSource source).1.errors) :
    lineAt (sourceLines source) error.token.span.start + 1 = error.token.line := by
  rw [lineAt_sourceLines, Parsed.error_line member]

end Snippets

theorem errors_on_lines (source : String) :
    (∀ error ∈ (Scan.ofSource source).errors, ∃ text, Slice source error.span text ∧
      error.line = lineOf source error.span.stop ∧
      (error.line = lineOf source error.span.start ↔ '\n' ∉ text.toList) ∧
      (error.cause ≠ .unterminatedString → '\n' ∉ text.toList)) ∧
    (∀ error ∈ (Parsed.ofSource source).1.errors,
      error.token.line = lineOf source error.token.span.start) :=
  ⟨fun _ => Scanner.mistake_line, fun _ => Parsed.error_line⟩

/-- A string without end that begins on the first of two lines is told on the second one. -/
theorem errors_on_lines_unterminated :
    "\"a\nb".utf8ByteSize < Scanner.largest ∧
      ¬ ∀ error ∈ (Scan.ofSource "\"a\nb").errors,
        error.line = lineOf "\"a\nb" error.span.start := by
  decide

end Diagnostic

end TreeWalk
