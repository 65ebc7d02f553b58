import TreeWalk.Proofs.Diagnosis.SourceParse

/-!
# Errors that are reported twice

The token at which a declaration fails is not consumed.  If recovery stops in front of it again and
no declaration begins with it, the next declaration fails at the same token.  This is the only way
in which two errors of a parse are about one token, and it does not happen a third time.
-/

set_option autoImplicit false

namespace TreeWalk

open Finding (Refused)
open Grammar (declarationStarts)

/-- The next declaration is looked for where the last one failed, and it cannot begin there. -/
structure Recovery.Repeats (tokens : List Token) (recovery : Recovery) : Prop where
  began : recovery.start < recovery.failed
  boundary : Boundary tokens recovery.failed
  unfit : ∃ token, tokens[recovery.failed]? = some token ∧ token.kind ∉ .eof :: declarationStarts

/-- The findings are about different tokens. -/
def Finding.Apart (one two : Finding) : Prop := one.place ≠ two.place

/-- The number of findings about the token at a place. -/
def findingsAt (place : Nat) (findings : List Finding) : Nat :=
  findings.countP (·.place = place)

theorem findingsAt_eq_zero {place : Nat} {findings : List Finding}
    (elsewhere : ∀ finding ∈ findings, finding.place ≠ place) : findingsAt place findings = 0 := by
  simpa [findingsAt, List.countP_eq_zero] using elsewhere

theorem findingsAt_append (place : Nat) (early late : List Finding) :
    findingsAt place (early ++ late) = findingsAt place early + findingsAt place late :=
  List.countP_append

theorem findingsAt_cons (place : Nat) (finding : Finding) (findings : List Finding) :
    findingsAt place (finding :: findings) =
      findingsAt place findings + if finding.place = place then 1 else 0 := by
  simp [findingsAt, List.countP_cons]

theorem findingsAt_le_one {findings : List Finding} (apart : findings.Pairwise Finding.Apart)
    (place : Nat) : findingsAt place findings ≤ 1 := by
  induction apart with
  | nil => exact Nat.zero_le _
  | @cons finding rest others _ ih =>
      rw [findingsAt_cons]
      split
      · next here =>
          rw [findingsAt_eq_zero fun other member same =>
            others other member (here.trans same.symm)]
      · omega

/-! ## One declaration -/

section Declaration

variable {tokens : List Token} {start stop : Nat} {findings : List Finding}
variable (refused : ∀ finding ∈ findings, finding.Refused tokens)
variable (noted : Noted start findings stop)

include refused noted

theorem Noted.apart : findings.Pairwise Finding.Apart := by
  refine noted.order.imp_of_mem fun {one two} first _ precedes => ?_
  have nonempty := (refused one first).place_lt_stop
  unfold Finding.Precedes at precedes
  unfold Finding.Apart
  omega

theorem Noted.place_lt {finding : Finding} (member : finding ∈ findings) :
    start ≤ finding.place ∧ finding.place < stop := by
  have inside := noted.inside finding member
  have nonempty := (refused finding member).place_lt_stop
  omega

theorem Noted.findingsAt_le (place : Nat) :
    findingsAt place findings ≤ 1 ∧ (stop ≤ place → findingsAt place findings = 0) := by
  refine ⟨findingsAt_le_one (noted.apart refused) place, fun behind => findingsAt_eq_zero ?_⟩
  intro finding member
  have := noted.place_lt refused member
  omega

end Declaration

theorem Finding.Refused.behind_start {tokens : List Token} {ending : Token} {start : Nat}
    {finding : Finding} (refused : finding.Refused tokens)
    (starts : (tokenAt tokens ending start).kind ∈ declarationStarts)
    (behind : start ≤ finding.place) : start < finding.place := by
  refine Nat.lt_of_le_of_ne behind ?_
  rintro rfl
  obtain ⟨front, equals, value, ⟨kind, -, rest, rfl, -⟩, rfl⟩ := refused
  have sign : equals.kind ∈ declarationStarts := by simpa [tokenAt] using starts
  rw [kind] at sign
  exact absurd sign (by decide)

namespace Course

variable {tokens : List Token} {ending : Token} {start : Nat} {findings : List Finding}
variable {recoveries : List Recovery}

theorem start_le (course : Course tokens ending start findings recoveries) {finding : Finding}
    (member : finding ∈ findings) : start ≤ finding.place :=
  (course.noted.inside finding member).1

theorem start_le_length (course : Course tokens ending start findings recoveries) :
    start ≤ tokens.length := course.noted.forward

/-! ## The first token of a declaration -/

theorem behind_start (course : Course tokens ending start findings recoveries)
    (starts : (tokenAt tokens ending start).kind ∈ declarationStarts) {finding : Finding}
    (member : finding ∈ findings) : start < finding.place := by
  cases course with
  | ended => cases member
  | read _ forward refused noted rest =>
      rcases List.mem_append.mp member with now | later
      · exact (refused finding now).behind_start starts (noted.inside finding now).1
      · have := rest.start_le later
        omega
  | failed sound refused noted rest =>
      have began := sound.began.mpr starts
      have forward := sound.failed_le
      rcases List.mem_append.mp member with now | later
      · exact (refused finding now).behind_start starts (noted.inside finding now).1
      · rcases List.mem_cons.mp later with rfl | later
        · exact began
        · have := rest.start_le later
          omega

theorem at_start (course : Course tokens ending start findings recoveries)
    (inside : start < tokens.length)
    (unfit : (tokenAt tokens ending start).kind ∉ declarationStarts) :
    ∃ later, findings =
        ⟨⟨.expectedExpression, tokenAt tokens ending start⟩, start, start⟩ :: later ∧
      ∀ finding ∈ later, start < finding.place := by
  cases course with
  | ended => omega
  | read starts => exact absurd starts unfit
  | @failed findings later recovery _ sound refused noted rest =>
      have here : recovery.failed = recovery.start := by
        have forward := sound.forward
        have stuck := mt sound.began.mp unfit
        omega
      have nothing : findings = [] := by
        refine List.eq_nil_iff_forall_not_mem.mpr fun finding member => ?_
        have := noted.place_lt refused member
        omega
      have error : recovery.error =
          ⟨.expectedExpression, tokenAt tokens ending recovery.start⟩ := by
        rw [← sound.refused here, ← here, ← sound.token]
      rw [nothing, error, here]
      refine ⟨later, rfl, fun finding member => ?_⟩
      have := rest.start_le member
      have := sound.progress
      omega

theorem at_end (course : Course tokens ending start findings recoveries)
    (outside : ¬ start < tokens.length) : findings = [] := by
  cases course with
  | ended => rfl
  | read _ forward _ _ rest =>
      have := rest.start_le_length
      omega
  | failed sound => exact absurd sound.inside outside

theorem findingsAt_before (course : Course tokens ending start findings recoveries) (place : Nat)
    (before : place < start) : findingsAt place findings = 0 := by
  refine findingsAt_eq_zero fun finding member => ?_
  have := course.start_le member
  omega

theorem findingsAt_start (course : Course tokens ending start findings recoveries) :
    findingsAt start findings ≤ 1 := by
  by_cases starts : (tokenAt tokens ending start).kind ∈ declarationStarts
  · rw [findingsAt_eq_zero fun finding member => (course.behind_start starts member).ne']
    omega
  · by_cases inside : start < tokens.length
    · obtain ⟨later, rfl, behind⟩ := course.at_start inside starts
      rw [findingsAt_cons, findingsAt_eq_zero fun finding member => (behind finding member).ne']
      simp
    · rw [course.at_end inside]
      exact Nat.zero_le _

/-! ## Behind a recovery -/

section Behind

variable {recovery : Recovery} (sound : recovery.Sound tokens ending)
variable (course : Course tokens ending recovery.resumed findings recoveries)

include sound course

/-- A recovery that repeats its error does so at once, and once only. -/
theorem repeated (repeats : recovery.Repeats tokens) :
    ∃ later, findings = ⟨⟨.expectedExpression, recovery.error.token⟩, recovery.failed,
        recovery.failed⟩ :: later ∧ ∀ finding ∈ later, recovery.failed < finding.place := by
  obtain ⟨token, found, unfit⟩ := repeats.unfit
  obtain ⟨inside, -⟩ := List.getElem?_eq_some_iff.mp found
  obtain rfl := Option.some.inj (found.symm.trans (getElem?_of_inside inside ending))
  have stays : recovery.resumed = recovery.failed := by
    have began := repeats.began
    have forward := sound.failed_le
    have skipsFrom : recovery.skipsFrom = recovery.failed := if_neg (by omega)
    by_cases skipped : recovery.failed < recovery.resumed
    · exact absurd repeats.boundary (sound.skips _ (by omega) skipped)
    · omega
  rw [stays] at course
  rw [sound.token]
  exact course.at_start inside fun starts => unfit (List.mem_cons_of_mem _ starts)

theorem unrepeated (inner : ∀ token ∈ tokens, token.kind ≠ .eof)
    (differs : ¬ recovery.Repeats tokens) {finding : Finding} (member : finding ∈ findings) :
    recovery.failed < finding.place := by
  have forward := sound.failed_le
  have behind := course.start_le member
  have progress := sound.progress
  by_cases stays : recovery.resumed = recovery.failed
  · rw [stays] at course
    by_cases starts : (tokenAt tokens ending recovery.failed).kind ∈ declarationStarts
    · exact course.behind_start starts member
    · by_cases inside : recovery.failed < tokens.length
      · have token := getElem?_of_inside inside ending
        have boundary := sound.resumes.resolve_left (by omega)
        rw [stays] at boundary
        refine absurd ⟨by omega, boundary, _, token, ?_⟩ differs
        rw [List.mem_cons, not_or]
        exact ⟨inner _ (List.mem_of_getElem? token), starts⟩
      · rw [course.at_end inside] at member
        cases member
  · omega

end Behind

/-! ## The whole way -/

variable (inner : ∀ token ∈ tokens, token.kind ≠ .eof)

include inner

theorem apart_iff (course : Course tokens ending start findings recoveries) :
    findings.Pairwise Finding.Apart ↔ ∀ recovery ∈ recoveries, ¬ recovery.Repeats tokens := by
  induction course with
  | ended => simp
  | read _ _ refused noted rest ih =>
      rw [List.pairwise_append, ih]
      refine ⟨fun apart => apart.2.1, fun differs => ⟨noted.apart refused, differs, ?_⟩⟩
      intro one first two second
      have := noted.place_lt refused first
      have := rest.start_le second
      unfold Finding.Apart
      omega
  | @failed findings later recovery recoveries sound refused noted rest ih =>
      rw [List.pairwise_append, List.pairwise_cons, ih, List.forall_mem_cons]
      constructor
      · rintro ⟨-, ⟨first, differs⟩, -⟩
        refine ⟨fun repeats => ?_, differs⟩
        obtain ⟨others, rfl, -⟩ := repeated sound rest repeats
        exact first _ List.mem_cons_self rfl
      · rintro ⟨first, differs⟩
        refine ⟨noted.apart refused, ⟨fun finding member => ?_, differs⟩, ?_⟩
        · have := unrepeated sound rest inner first member
          unfold Finding.Apart
          dsimp only
          omega
        · intro one early two late
          have before := noted.place_lt refused early
          have forward := sound.failed_le
          unfold Finding.Apart
          rcases List.mem_cons.mp late with rfl | late
          · dsimp only
            omega
          · have := rest.start_le late
            omega

omit inner in
theorem findingsAt_le_two (course : Course tokens ending start findings recoveries) (place : Nat) :
    findingsAt place findings ≤ 2 := by
  induction course with
  | ended => exact Nat.zero_le _
  | read _ _ refused noted rest ih =>
      have now := noted.findingsAt_le refused place
      have before := rest.findingsAt_before place
      rw [findingsAt_append]
      omega
  | @failed findings later recovery _ sound refused noted rest ih =>
      have now := noted.findingsAt_le refused place
      have before := rest.findingsAt_before place
      have forward := sound.failed_le
      rw [findingsAt_append, findingsAt_cons]
      dsimp only
      split
      · next here =>
          have again := rest.findingsAt_start
          by_cases stays : recovery.resumed = recovery.failed
          · rw [stays, here] at again
            omega
          · omega
      · omega

omit inner in
theorem repeated_infix (course : Course tokens ending start findings recoveries)
    {recovery : Recovery} (member : recovery ∈ recoveries) (repeats : recovery.Repeats tokens) :
    [recovery.error, ⟨.expectedExpression, recovery.error.token⟩] <:+:
      findings.map Finding.error := by
  induction course with
  | ended => cases member
  | read _ _ _ _ _ ih =>
      rw [List.map_append]
      exact (ih member).trans (List.suffix_append _ _).isInfix
  | @failed findings later _ _ sound _ _ rest ih =>
      rw [List.map_append, List.map_cons]
      rcases List.mem_cons.mp member with rfl | member
      · obtain ⟨others, rfl, -⟩ := repeated sound rest repeats
        exact ⟨findings.map Finding.error, others.map Finding.error, by simp⟩
      · exact ((ih member).trans (List.suffix_cons _ _).isInfix).trans
          (List.suffix_append _ _).isInfix

end Course

/-! ## The errors of a source -/

theorem boundary_append {tokens : List Token} {place : Nat} (inside : place < tokens.length)
    (more : List Token) : Boundary (tokens ++ more) place ↔ Boundary tokens place := by
  unfold Boundary
  rw [List.take_append_of_le_length (Nat.le_of_lt inside),
    List.drop_append_of_le_length (Nat.le_of_lt inside), List.drop_eq_getElem_cons inside]
  rfl

theorem Recovery.repeats_append {tokens : List Token} {ending : Token} (last : ending.kind = .eof)
    {recovery : Recovery} : recovery.Repeats (tokens ++ [ending]) ↔ recovery.Repeats tokens := by
  constructor
  · rintro ⟨began, boundary, token, found, unfit⟩
    rcases Nat.lt_trichotomy recovery.failed tokens.length with inside | here | outside
    · rw [List.getElem?_append_left inside] at found
      exact ⟨began, (boundary_append inside _).mp boundary, token, found, unfit⟩
    · obtain rfl : ending = token := by simpa [here] using found
      rw [last] at unfit
      exact absurd List.mem_cons_self unfit
    · rw [List.getElem?_eq_none (by simp; omega)] at found
      cases found
  · rintro ⟨began, boundary, token, found, unfit⟩
    obtain ⟨inside, -⟩ := List.getElem?_eq_some_iff.mp found
    have further : (tokens ++ [ending])[recovery.failed]? = some token := by
      rw [List.getElem?_append_left inside, found]
    exact ⟨began, (boundary_append inside _).mpr boundary, token, further, unfit⟩

namespace SourceParse

variable {source : String} {body : List Token} {ending : Token} {findings : List Finding}
variable (parse : SourceParse source body ending findings)

include parse

theorem span_eq_iff {one two : Finding} (first : one ∈ findings) (second : two ∈ findings) :
    one.error.token.span = two.error.token.span ↔ one.place = two.place := by
  have here := parse.getElem?_finding first
  have there := parse.getElem?_finding second
  constructor
  · exact fun same => Scan.place_unique here there (congrArg Span.start same)
  · intro same
    rw [same] at here
    rw [Option.some.inj (here.symm.trans there)]

theorem countP_span_le_two (span : Span) :
    (findings.map Finding.error).countP (·.token.span = span) ≤ 2 := by
  rw [List.countP_map]
  by_cases found : ∃ finding ∈ findings, finding.error.token.span = span
  · obtain ⟨finding, member, rfl⟩ := found
    refine Nat.le_trans (Nat.le_of_eq ?_) (parse.course.findingsAt_le_two finding.place)
    refine List.countP_congr fun other among => ?_
    simpa using parse.span_eq_iff among member
  · rw [List.countP_eq_zero.mpr fun finding member => ?_]
    · omega
    · simpa using fun same => found ⟨finding, member, same⟩

end SourceParse

/-- The errors that ended a declaration are those that the parser recovered from.  Two errors of a
source are about one token exactly when one of these recoveries repeats its error; the repetition
follows at once, and there is no third error about that token. -/
theorem Parsed.errors_repeated (source : String) :
    ((Parsed.ofSource source).1.recoveries.map Recovery.error =
      (Parsed.ofSource source).1.errors.filter (·.cause ≠ .invalidAssignmentTarget)) ∧
    (((Parsed.ofSource source).1.errors.Pairwise fun one two => one.token.span ≠ two.token.span) ↔
      ∀ recovery ∈ (Parsed.ofSource source).1.recoveries,
        ¬ recovery.Repeats (Scan.ofSource source).tokens) ∧
    (∀ recovery ∈ (Parsed.ofSource source).1.recoveries,
      recovery.Repeats (Scan.ofSource source).tokens →
        [recovery.error, ⟨.expectedExpression, recovery.error.token⟩] <:+:
          (Parsed.ofSource source).1.errors) ∧
    ∀ span, (Parsed.ofSource source).1.errors.countP (·.token.span = span) ≤ 2 := by
  obtain ⟨body, ending, findings, parse⟩ := exists_sourceParse source
  have course := parse.course
  rw [parse.errors, parse.scanned]
  simp only [Recovery.repeats_append parse.last]
  refine ⟨course.recovered, ?_, fun recovery member => course.repeated_infix member, ?_⟩
  · rw [← course.apart_iff parse.inside, List.pairwise_map]
    exact List.Pairwise.iff_of_mem fun first second => not_congr (parse.span_eq_iff first second)
  · intro span
    exact parse.countP_span_le_two span

/-- The keyword that no expression begins with is reported for the missing expression, and then
again for the declaration looked for in front of it. -/
theorem Parsed.errors_repeated_class :
    "print class".utf8ByteSize < Scanner.largest ∧
      ¬ (Parsed.ofSource "print class").1.errors.Pairwise fun one two =>
        one.token.span ≠ two.token.span := by
  have reported : (Parsed.ofSource "print class").1.errors.map (·.token.span) =
      [⟨6, 11⟩, ⟨6, 11⟩] := by decide
  refine ⟨by decide, fun apart => ?_⟩
  rw [← List.pairwise_map, reported] at apart
  exact absurd apart (by decide)

end TreeWalk
