import TreeWalk.Proofs.Scanning.SourceText
import TreeWalk.Proofs.Syntax.Course

/-!
# The parse of a source

A source is scanned and its tokens are parsed.  The tokens have one end token, behind all others,
and each of them begins behind the one before it.  So places among the tokens and offsets in the
source are ordered alike, and what is known of the course of a parse can be told by offsets.
-/

set_option autoImplicit false

namespace TreeWalk

/-! ## Places and offsets -/

theorem getElem?_tokenAt {tokens : List Token} {ending : Token} {place : Nat}
    (within : place ≤ tokens.length) :
    (tokens ++ [ending])[place]? = some (tokenAt tokens ending place) := by
  by_cases inside : place < tokens.length
  · rw [List.getElem?_append_left inside]
    exact getElem?_of_inside inside ending
  · obtain rfl : place = tokens.length := by omega
    simp [tokenAt]

namespace Scan

variable {source : String} {first second : Token} {early late : Nat}

theorem start_lt_of_lt (one : (ofSource source).tokens[early]? = some first)
    (two : (ofSource source).tokens[late]? = some second) (order : early < late) :
    first.span.start < second.span.start := by
  obtain ⟨oneInside, rfl⟩ := List.getElem?_eq_some_iff.mp one
  obtain ⟨twoInside, rfl⟩ := List.getElem?_eq_some_iff.mp two
  have before := List.pairwise_iff_getElem.mp (Scanner.tokens_before source) early late oneInside
    twoInside order
  exact Nat.lt_of_lt_of_le before.1 before.2

theorem start_lt_iff (one : (ofSource source).tokens[early]? = some first)
    (two : (ofSource source).tokens[late]? = some second) :
    first.span.start < second.span.start ↔ early < late := by
  refine ⟨fun order => ?_, start_lt_of_lt one two⟩
  rcases Nat.lt_trichotomy early late with before | same | behind
  · exact before
  · subst same
    cases one.symm.trans two
    omega
  · have := start_lt_of_lt two one behind
    omega

theorem place_unique (one : (ofSource source).tokens[early]? = some first)
    (two : (ofSource source).tokens[late]? = some second)
    (same : first.span.start = second.span.start) : early = late := by
  have order := start_lt_iff one two
  have other := start_lt_iff two one
  omega

end Scan

/-! ## The course of the parse -/

/-- The tokens of a source in front of the end token, and what is found while they are parsed. -/
structure SourceParse (source : String) (body : List Token) (ending : Token)
    (findings : List Finding) : Prop where
  scanned : (Scan.ofSource source).tokens = body ++ [ending]
  inside : ∀ token ∈ body, token.kind ≠ .eof
  last : ending.kind = .eof
  course : Course body ending 0 findings (Parsed.ofSource source).1.recoveries
  errors : (Parsed.ofSource source).1.errors = findings.map Finding.error

theorem exists_sourceParse (source : String) :
    ∃ body ending findings, SourceParse source body ending findings := by
  obtain ⟨body, scanned, inside⟩ := Scanner.tokens_ending source
  obtain ⟨findings, course, errors⟩ := Parsed.course_ofTokens (Scan.ofSource source).tokens
  have sentence := Parsed.ofTokens_sentence inside
    (show (Token.ending (1 + source.toList.count '\n') source.utf8ByteSize).kind = .eof from rfl)
  rw [← scanned] at sentence
  rw [sentence] at course
  exact ⟨body, _, findings, scanned, inside, rfl, course, errors⟩

namespace SourceParse

variable {source : String} {body : List Token} {ending : Token} {findings : List Finding}
variable (parse : SourceParse source body ending findings)

include parse

theorem getElem?_place {place : Nat} (within : place ≤ body.length) :
    (Scan.ofSource source).tokens[place]? = some (tokenAt body ending place) := by
  rw [parse.scanned]
  exact getElem?_tokenAt within

theorem getElem?_finding {finding : Finding} (member : finding ∈ findings) :
    (Scan.ofSource source).tokens[finding.place]? = some finding.error.token := by
  have inside := parse.course.noted.inside finding member
  rcases parse.course.found member with ⟨front, equals, value, assigns, rfl⟩ | halted
  · obtain ⟨rest, split, -⟩ := assigns.behind
    rw [parse.scanned, split]
    simp
  · rw [halted.token]
    exact parse.getElem?_place (by omega)

theorem start_lt_iff {one two : Finding} (first : one ∈ findings) (second : two ∈ findings) :
    one.error.token.span.start < two.error.token.span.start ↔ one.place < two.place :=
  Scan.start_lt_iff (parse.getElem?_finding first) (parse.getElem?_finding second)

end SourceParse

theorem Parsed.token_of_error {source : String} {error : SyntaxError}
    (member : error ∈ (Parsed.ofSource source).1.errors) :
    error.token ∈ (Scan.ofSource source).tokens := by
  obtain ⟨body, ending, findings, parse⟩ := exists_sourceParse source
  rw [parse.errors] at member
  obtain ⟨finding, found, rfl⟩ := List.mem_map.mp member
  exact List.mem_of_getElem? (parse.getElem?_finding found)

end TreeWalk
