import Mathlib.Data.List.Perm.Subperm
import TreeWalk.Proofs.Diagnosis.RepeatedErrors

/-!
# How many errors a parse reports

Each recovery ends at a boundary of its own: behind a semicolon, before a keyword that starts a
statement, or at the end.  Each wrong assignment is about an equals sign of its own.  So the tokens
bound the number of errors, however the declarations fail.
-/

set_option autoImplicit false

namespace TreeWalk

/-! ## Places of tokens -/

theorem mem_findIdxs_of_getElem? {tokens : List Token} {sort : Token → Bool} {place : Nat}
    {token : Token} (here : tokens[place]? = some token) (fits : sort token = true) :
    place ∈ tokens.findIdxs sort := by
  obtain ⟨inside, same⟩ := List.getElem?_eq_some_iff.mp here
  rw [List.mem_findIdxs_iff_exists_getElem_pos]
  exact ⟨inside, by rwa [same]⟩

theorem length_le_countP_of_nodup {tokens : List Token} {sort : Token → Bool} {places : List Nat}
    (different : places.Nodup)
    (held : ∀ place ∈ places, ∃ token, tokens[place]? = some token ∧ sort token = true) :
    places.length ≤ tokens.countP sort := by
  have found : places ⊆ tokens.findIdxs sort := by
    intro place member
    obtain ⟨token, here, fits⟩ := held place member
    exact mem_findIdxs_of_getElem? here fits
  rw [← List.length_findIdxs]
  exact (different.subperm found).length_le

theorem boundary_iff {tokens : List Token} {place : Nat} (inside : place ≤ tokens.length) :
    Boundary tokens place ↔
      (∃ before token, place = before + 1 ∧ tokens[before]? = some token ∧
        token.kind = .semicolon) ∨
      ∃ token, tokens[place]? = some token ∧ token.kind.startsStatement = true := by
  have next : (tokens.drop place).head?.map (fun token => token.kind.startsStatement) = some true ↔
      ∃ token, tokens[place]? = some token ∧ token.kind.startsStatement = true := by
    rw [List.head?_drop, Option.map_eq_some_iff]
  have last : (tokens.take place).getLast?.map Token.kind = some .semicolon ↔
      ∃ before token, place = before + 1 ∧ tokens[before]? = some token ∧
        token.kind = .semicolon := by
    cases place with
    | zero => simp
    | succ before =>
        obtain ⟨token, here⟩ : ∃ token, tokens[before]? = some token :=
          ⟨_, List.getElem?_eq_getElem inside⟩
        simp [List.getLast?_take, here]
  rw [Boundary, last, next]

/-- The places where recovery may end. -/
def boundaries (tokens : List Token) : List Nat :=
  tokens.length :: ((tokens.findIdxs (·.kind = .semicolon)).map Nat.succ ++
    tokens.findIdxs (·.kind.startsStatement))

theorem length_boundaries (tokens : List Token) :
    (boundaries tokens).length =
      1 + tokens.countP (·.kind = .semicolon) + tokens.countP (·.kind.startsStatement) := by
  simp only [boundaries, List.length_cons, List.length_append, List.length_map,
    List.length_findIdxs]
  omega

theorem mem_boundaries {tokens : List Token} {place : Nat} (inside : place ≤ tokens.length)
    (arrives : place = tokens.length ∨ Boundary tokens place) : place ∈ boundaries tokens := by
  rw [boundary_iff inside] at arrives
  rcases arrives with rfl | ⟨before, token, rfl, here, kind⟩ | ⟨token, here, starts⟩
  · exact List.mem_cons_self
  · refine List.mem_cons_of_mem _ (List.mem_append_left _ (List.mem_map_of_mem ?_))
    exact mem_findIdxs_of_getElem? here (by simpa using kind)
  · refine List.mem_cons_of_mem _ (List.mem_append_right _ ?_)
    exact mem_findIdxs_of_getElem? here starts

/-! ## Findings -/

theorem Noted.filter {first last : Nat} {findings : List Finding}
    (noted : Noted first findings last) (chosen : Finding → Bool) :
    Noted first (findings.filter chosen) last :=
  ⟨noted.forward, fun finding member => noted.inside finding (List.mem_filter.mp member).1,
    noted.order.filter _⟩

theorem Finding.Refused.sign {tokens : List Token} {finding : Finding}
    (refused : finding.Refused tokens) :
    ∃ token, tokens[finding.place]? = some token ∧ decide (token.kind = .equal) = true := by
  obtain ⟨front, equals, value, assigns, rfl⟩ := refused
  obtain ⟨rest, split, -⟩ := assigns.behind
  exact ⟨equals, by simp [split], by simp [assigns.kind]⟩

/-! ## Recoveries -/

namespace Recovery

/-- Where the parser has gone on, and what it has discarded on the way there. -/
structure Settles (tokens : List Token) (recovery : Recovery) : Prop where
  progress : recovery.start < recovery.resumed
  arrives : recovery.resumed = tokens.length ∨ Boundary tokens recovery.resumed
  skips : ∀ place token, recovery.failed ≤ place → place < recovery.resumed →
    tokens[place]? = some token →
      token.kind = .semicolon ∨ token.kind.startsStatement = true →
        (recovery.failed = recovery.start ∧ place = recovery.start) ∨
          (place + 1 = recovery.resumed ∧ token.kind = .semicolon)

variable {tokens : List Token} {ending : Token} {recovery : Recovery}

theorem Sound.settles (sound : recovery.Sound tokens ending) : recovery.Settles tokens := by
  refine ⟨sound.progress, sound.resumes, fun place token behind before here kind => ?_⟩
  have within := sound.within
  by_cases first : recovery.failed = recovery.start ∧ place = recovery.start
  · exact Or.inl first
  have skipped : recovery.skipsFrom ≤ place := by
    unfold skipsFrom
    split <;> omega
  rcases kind with semicolon | starts
  · by_cases final : place + 1 = recovery.resumed
    · exact Or.inr ⟨final, semicolon⟩
    · refine absurd ?_ (sound.skips (place + 1) (by omega) (by omega))
      exact (boundary_iff (by omega)).mpr (Or.inl ⟨place, token, rfl, here, semicolon⟩)
  · refine absurd ?_ (sound.skips place skipped before)
    exact (boundary_iff (by omega)).mpr (Or.inr ⟨token, here, starts⟩)

end Recovery

namespace Course

variable {tokens : List Token} {ending : Token} {start : Nat} {findings : List Finding}
variable {recoveries : List Recovery}

theorem sound (course : Course tokens ending start findings recoveries) {recovery : Recovery}
    (member : recovery ∈ recoveries) : recovery.Sound tokens ending := by
  induction course with
  | ended => cases member
  | read _ _ _ _ _ ih => exact ih member
  | failed sound _ _ _ ih =>
      rcases List.mem_cons.mp member with rfl | later
      · exact sound
      · exact ih later

theorem resumed_increase (course : Course tokens ending start findings recoveries) :
    (∀ recovery ∈ recoveries, start < recovery.resumed) ∧
      (recoveries.map Recovery.resumed).Pairwise (· < ·) := by
  induction course with
  | ended => exact ⟨by simp, .nil⟩
  | read _ forward _ _ _ ih =>
      exact ⟨fun recovery member => forward.trans (ih.1 recovery member), ih.2⟩
  | failed sound _ _ _ ih =>
      refine ⟨fun recovery member => ?_, ?_⟩
      · rcases List.mem_cons.mp member with rfl | later
        · exact sound.progress
        · exact sound.progress.trans (ih.1 recovery later)
      · rw [List.map_cons, List.pairwise_cons]
        exact ⟨by simpa using ih.1, ih.2⟩

/-- No two recoveries end at the same boundary. -/
theorem length_recoveries (course : Course tokens ending start findings recoveries) :
    recoveries.length ≤ (boundaries tokens).length := by
  have different : (recoveries.map Recovery.resumed).Nodup :=
    course.resumed_increase.2.imp Nat.ne_of_lt
  have found : recoveries.map Recovery.resumed ⊆ boundaries tokens := by
    intro place member
    obtain ⟨recovery, given, rfl⟩ := List.mem_map.mp member
    exact mem_boundaries (course.sound given).within (course.sound given).resumes
  simpa using (different.subperm found).length_le

/-- No two wrong assignments are about the same sign. -/
theorem countP_refused (course : Course tokens ending start findings recoveries) :
    findings.countP (·.error.cause = .invalidAssignmentTarget) ≤
      tokens.countP (·.kind = .equal) := by
  have refused : ∀ finding ∈ findings.filter (·.error.cause = .invalidAssignmentTarget),
      finding.Refused tokens := by
    intro finding member
    obtain ⟨given, cause⟩ := List.mem_filter.mp member
    rcases course.found given with refused | halted
    · exact refused
    · exact absurd (by simpa using cause) halted.cause
  have apart := (course.noted.filter _).apart refused
  have different : ((findings.filter (·.error.cause = .invalidAssignmentTarget)).map
      Finding.place).Nodup :=
    List.pairwise_map.mpr apart
  have signs := length_le_countP_of_nodup different fun place member => by
    obtain ⟨finding, chosen, rfl⟩ := List.mem_map.mp member
    exact (refused finding chosen).sign
  rwa [List.length_map, ← List.countP_eq_length_filter] at signs

end Course

/-! ## Whole parses -/

/-- After each error that ends a declaration, parsing goes on beyond the start of that declaration:
at the end, behind a semicolon or at a keyword that starts a statement.  What is discarded from the
place of the error on holds neither, apart from the token that no declaration begins with and from
a final semicolon.  So there is at most one such error for each boundary of this kind, and at most
one wrong assignment for each equals sign. -/
theorem Parsed.recoveries_settle (given : List Token) :
    ((Parsed.ofTokens given).recoveries.map Recovery.error =
        (Parsed.ofTokens given).errors.filter (·.cause ≠ .invalidAssignmentTarget)) ∧
      (∀ recovery ∈ (Parsed.ofTokens given).recoveries,
        recovery.Settles (given.takeWhile fun token => !token.isEnd)) ∧
      (Parsed.ofTokens given).errors.countP (·.cause ≠ .invalidAssignmentTarget) ≤
        1 + given.countP (·.kind = .semicolon) + given.countP (·.kind.startsStatement) ∧
      (Parsed.ofTokens given).errors.countP (·.cause = .invalidAssignmentTarget) ≤
        given.countP (·.kind = .equal) := by
  obtain ⟨findings, course, errors⟩ := Parsed.course_ofTokens given
  rw [Parser.tokens_ofTokens] at course
  have shorter : (given.takeWhile fun token => !token.isEnd).Sublist given :=
    List.takeWhile_sublist _
  have recovered := course.recovered
  rw [← errors] at recovered
  refine ⟨recovered, fun recovery member => (course.sound member).settles, ?_, ?_⟩
  · have few := course.length_recoveries
    have semicolons := shorter.countP_le (p := (·.kind = .semicolon))
    have keywords := shorter.countP_le (p := fun token => token.kind.startsStatement)
    rw [length_boundaries, ← List.length_map, recovered, ← List.countP_eq_length_filter] at few
    omega
  · have few := course.countP_refused
    have signs := shorter.countP_le (p := fun token => decide (token.kind = .equal))
    rw [errors, List.countP_map]
    exact few.trans signs

end TreeWalk
