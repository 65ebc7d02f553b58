import Mathlib.Data.List.Pairwise
import TreeWalk.Proofs.Diagnosis.SourceParse

/-!
# The order of syntax errors

The errors of a parse are listed as they are noted, and a wrong assignment is noted behind its
value.  So two errors are listed against the order of the source if and only if the later one is
about a wrong assignment and the earlier one about a token of its value.
-/

set_option autoImplicit false

namespace TreeWalk

open Grammar (continuing)

def SyntaxError.Encloses (tokens : List Token) (outer inner : SyntaxError) : Prop :=
  outer.cause = .invalidAssignmentTarget ∧
    ∃ front value, Assigns tokens front outer.token value ∧ inner.token ∈ value

/-- Of two errors the one listed later stands first in the source only if it encloses the other. -/
def SyntaxError.Listed (tokens : List Token) (earlier later : SyntaxError) : Prop :=
  ¬ earlier.Encloses tokens later ∧
    (later.token.span.start < earlier.token.span.start ↔ later.Encloses tokens earlier)

theorem Assigns.append {body front value : List Token} {equals ending : Token}
    (assigns : Assigns body front equals value) (last : ending.kind = .eof) :
    Assigns (body ++ [ending]) front equals value := by
  obtain ⟨kind, reads, rest, rfl, stops⟩ := assigns
  refine ⟨kind, reads, rest ++ [ending], by simp, ?_⟩
  cases rest with
  | nil =>
      refine Parser.stops_cons ?_
      rw [last]
      decide
  | cons token rest => exact Parser.stops_cons (stops token rfl)

namespace Assigns

variable {tokens front value : List Token} {equals : Token}
variable (assigns : Assigns tokens front equals value)

include assigns

theorem sign : tokens[front.length]? = some equals := by
  obtain ⟨rest, rfl, -⟩ := assigns.behind
  simp

theorem mem_iff {token : Token} :
    token ∈ value ↔ ∃ place, front.length < place ∧ place < front.length + 1 + value.length ∧
      tokens[place]? = some token := by
  obtain ⟨rest, rfl, -⟩ := assigns.behind
  have inside {index : Nat} (within : index < value.length) :
      (front ++ equals :: (value ++ rest))[front.length + 1 + index]? = value[index]? := by
    rw [List.getElem?_append_right (by omega),
      show front.length + 1 + index - front.length = index + 1 by omega, List.getElem?_cons_succ,
      List.getElem?_append_left within]
  rw [List.mem_iff_getElem?]
  constructor
  · rintro ⟨index, found⟩
    obtain ⟨within, -⟩ := List.getElem?_eq_some_iff.mp found
    exact ⟨front.length + 1 + index, by omega, by omega, (inside within).trans found⟩
  · rintro ⟨place, behind, before, found⟩
    obtain ⟨index, rfl⟩ := Nat.exists_eq_add_of_le behind
    rw [Nat.succ_eq_add_one, inside (by omega)] at found
    exact ⟨index, found⟩

end Assigns

namespace SourceParse

variable {source : String} {body : List Token} {ending : Token} {findings : List Finding}
variable (parse : SourceParse source body ending findings)
variable {outer inner : Finding} (first : outer ∈ findings) (second : inner ∈ findings)

include parse first second

theorem encloses_iff :
    outer.error.Encloses (Scan.ofSource source).tokens inner.error ↔
      outer.place < inner.place ∧ inner.place < outer.stop := by
  have outerToken := parse.getElem?_finding first
  have innerToken := parse.getElem?_finding second
  rcases parse.course.found first with ⟨front, equals, value, assigns, rfl⟩ | halted
  · have whole := assigns.append parse.last
    rw [← parse.scanned] at whole
    constructor
    · rintro ⟨-, other, another, again, member⟩
      -- the sign stands at one place only, and there it has one value
      have length := Scan.place_unique again.sign outerToken rfl
      obtain ⟨rest, split, -⟩ := whole.behind
      obtain ⟨rest', split', -⟩ := again.behind
      obtain ⟨rfl, -⟩ := List.append_inj (split'.symm.trans split) length
      obtain rfl := whole.unique again
      obtain ⟨place, behind, before, found⟩ := again.mem_iff.mp member
      have here := Scan.place_unique innerToken found rfl
      dsimp only
      omega
    · rintro ⟨behind, before⟩
      exact ⟨rfl, front, value, whole, whole.mem_iff.mpr ⟨inner.place, behind, before, innerToken⟩⟩
  · have cause := halted.cause
    have here := halted.here
    constructor
    · exact fun encloses => absurd encloses.1 cause
    · omega

theorem listed_of_precedes (precedes : outer.Precedes inner) :
    outer.error.Listed (Scan.ofSource source).tokens inner.error := by
  unfold SyntaxError.Listed
  rw [parse.encloses_iff first second, parse.encloses_iff second first,
    parse.start_lt_iff second first]
  have inside := parse.course.noted.inside outer first
  unfold Finding.Precedes at precedes
  omega

omit first second in
theorem listed : (Parsed.ofSource source).1.errors.Pairwise
    (SyntaxError.Listed (Scan.ofSource source).tokens) := by
  rw [parse.errors, List.pairwise_map]
  exact parse.course.noted.order.imp_of_mem fun first second precedes =>
    parse.listed_of_precedes first second precedes

omit first second in
theorem not_encloses_self {error : SyntaxError}
    (member : error ∈ (Parsed.ofSource source).1.errors) :
    ¬ error.Encloses (Scan.ofSource source).tokens error := by
  rw [parse.errors] at member
  obtain ⟨finding, found, rfl⟩ := List.mem_map.mp member
  rw [parse.encloses_iff found found]
  omega

end SourceParse

/-- Two errors of a source are listed against its order if and only if the later one encloses the
earlier one.  So the errors are in the order of the source unless one of them encloses another. -/
theorem Parsed.errors_in_order (source : String) :
    (Parsed.ofSource source).1.errors.Pairwise
        (SyntaxError.Listed (Scan.ofSource source).tokens) ∧
    (((Parsed.ofSource source).1.errors.Pairwise fun earlier later =>
        earlier.token.span.start ≤ later.token.span.start) ↔
      ∀ outer ∈ (Parsed.ofSource source).1.errors, ∀ inner ∈ (Parsed.ofSource source).1.errors,
        ¬ outer.Encloses (Scan.ofSource source).tokens inner) := by
  obtain ⟨body, ending, findings, parse⟩ := exists_sourceParse source
  have listed := parse.listed
  refine ⟨listed, fun ordered outer first inner second => ?_, fun apart => ?_⟩
  · have forward := listed.imp fun pair => pair.1
    have backward : (Parsed.ofSource source).1.errors.Pairwise fun earlier later =>
        ¬ later.Encloses (Scan.ofSource source).tokens earlier := by
      refine (listed.and ordered).imp ?_
      rintro earlier later ⟨⟨-, turned⟩, order⟩ encloses
      have := turned.mpr encloses
      omega
    exact forward.forall_of_forall_of_flip (fun _ => parse.not_encloses_self) backward first second
  · refine listed.imp_of_mem fun first second pair => ?_
    have := apart _ second _ first
    rw [← pair.2] at this
    omega

/-- In an assignment within an assignment, both of them wrong, the inner one is listed first. -/
theorem Parsed.errors_in_order_nested :
    "1 = 2 = 3;".utf8ByteSize < Scanner.largest ∧
      ¬ (Parsed.ofSource "1 = 2 = 3;").1.errors.Pairwise fun earlier later =>
        earlier.token.span.start ≤ later.token.span.start := by
  have listed : (Parsed.ofSource "1 = 2 = 3;").1.errors.map
      (fun error => error.token.span.start) = [6, 2] := by decide
  refine ⟨by decide, fun ordered => ?_⟩
  rw [← List.pairwise_map, listed] at ordered
  exact absurd ordered (by decide)

end TreeWalk
