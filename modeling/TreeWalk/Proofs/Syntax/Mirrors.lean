import TreeWalk.Proofs.Syntax.Course
import TreeWalk.Proofs.Syntax.Cursor

/-!
# Rules under a cursor

An action on a cursor mirrors a rule if it does the same at the place of the parser, whatever
tokens stand behind the place where the rule ends.  So it never comes upon a trap.  The rounds of
an action have nothing to do with the bounds of a rule: it is enough that both are above the
number of tokens ahead, and `Reflects` carries such a number through loops and nestings.
-/

set_option autoImplicit false

namespace TreeWalk

open TreeWalk.Parser (Passed)
open Stateful (bind_of_error bind_of_ok)

namespace Parser

/-- No end token stands in front of the one that ends all. -/
structure Sound (parser : Parser) : Prop where
  inside : ∀ token ∈ parser.tokens, token.kind ≠ .eof
  last : parser.ending.kind = .eof

theorem Passed.sound {before after : Parser} {read : List Token} {noted : List SyntaxError}
    (passed : Passed before read noted after) (sound : before.Sound) : after.Sound := by
  refine ⟨?_, passed.last sound.last⟩
  rw [passed.tokens]
  exact sound.inside

theorem Passed.length_ahead_le {before after : Parser} {read : List Token}
    {noted : List SyntaxError} (passed : Passed before read noted after) :
    after.ahead.length ≤ before.ahead.length := by
  rw [passed.ahead, List.length_append]
  exact Nat.le_add_left _ _

theorem Passed.length_ahead_lt {before after : Parser} {token : Token} {read : List Token}
    {noted : List SyntaxError} (passed : Passed before (token :: read) noted after) :
    after.ahead.length < before.ahead.length := by
  rw [passed.ahead, List.length_append, List.length_cons]
  omega

theorem Passed.position_le {before after : Parser} {read : List Token}
    {noted : List SyntaxError} (passed : Passed before read noted after) :
    before.position ≤ after.position := by
  rw [passed.position]
  exact Nat.le_add_right _ _

theorem Sound.isEnd_next {parser : Parser} (sound : parser.Sound) :
    parser.next.isEnd = true ↔ parser.ahead = [] := by
  unfold next Token.isEnd
  cases ahead : parser.ahead with
  | nil => simp [sound.last]
  | cons token rest =>
      have member : token ∈ parser.tokens := by simp [tokens, ahead]
      simp [sound.inside token member]

/-- Up to a place a vector has the tokens of the parser, and then its end token. -/
def Shows (parser : Parser) (given : List Token) (place : Nat) : Prop :=
  ∀ earlier ≤ place, given[earlier]? = some (tokenAt parser.tokens parser.ending earlier)

theorem Shows.mono {parser : Parser} {given : List Token} {place nearer : Nat}
    (shows_ : parser.Shows given place) (le : nearer ≤ place) : parser.Shows given nearer :=
  fun earlier before => shows_ earlier (Nat.le_trans before le)

theorem Passed.shows {before after : Parser} {read : List Token} {noted : List SyntaxError}
    (passed : Passed before read noted after) {given : List Token} {place : Nat} :
    after.Shows given place ↔ before.Shows given place := by
  unfold Shows
  rw [passed.tokens, passed.ending]

theorem Shows.here {parser : Parser} {given : List Token}
    (shows_ : parser.Shows given parser.position) :
    given[parser.position]? = some parser.next := by
  rw [shows_ parser.position (Nat.le_refl _), next_eq_tokenAt]

theorem Shows.position_lt_findIdx {parser : Parser} {given : List Token} (sound : parser.Sound)
    (shows_ : parser.Shows given parser.position) (more : parser.ahead ≠ []) :
    parser.position < given.findIdx Token.isEnd := by
  obtain ⟨inside, -⟩ := List.getElem?_eq_some_iff.mp shows_.here
  refine List.lt_findIdx_of_not inside fun earlier le => ?_
  have some := List.length_pos_iff.mpr more
  have whole := length_tokens parser
  have found := getElem?_of_inside (show earlier < parser.tokens.length by omega) parser.ending
  have shown := shows_ earlier le
  rw [← found, List.getElem?_eq_getElem (by omega)] at shown
  have other := sound.inside _ (List.mem_of_getElem? shown.symm)
  simpa [Token.isEnd] using other

/-- The cursor at the place of the parser. -/
def cursor (parser : Parser) (given : List Token) : Cursor :=
  ⟨given, parser.position, parser.errors.reverse⟩

theorem Passed.cursor {before after : Parser} {read : List Token}
    (passed : Passed before read [] after) (given : List Token) :
    after.cursor given = ⟨given, after.position, before.errors.reverse⟩ := by
  unfold Parser.cursor
  rw [passed.errors]
  rfl

end Parser

theorem Rule.next_of_declined {kinds : List Kind} {parser after : Parser} (sound : parser.Sound)
    (inside : Kind.eof ∉ kinds) (run : accept? kinds parser = .ok none after) :
    parser.next.kind ∉ kinds := by
  have stops := stops_of_accept? run
  unfold Parser.next
  cases ahead : parser.ahead with
  | nil =>
      rw [List.headD_nil, sound.last]
      exact inside
  | cons token rest => exact stops token (by simp [ahead])

theorem Rule.accept?_some {kinds : List Kind} {parser after : Parser} {token : Token}
    (run : accept? kinds parser = .ok (some token) after) :
    ∃ rest, parser.ahead = token :: rest ∧ token.kind ∈ kinds ∧ after = parser.step := by
  unfold accept? at run
  split at run
  · cases run
  · next first rest ahead =>
      split at run
      · next member =>
          cases run
          exact ⟨rest, ahead, by simpa using member, rfl⟩
      · cases run

namespace Cursor

/-! ## Looking and moving -/

section Look

variable {parser : Parser} {given : List Token} {errors : List SyntaxError}
variable (shows_ : parser.Shows given parser.position)

include shows_

theorem peek_eq : peek ⟨given, parser.position, errors⟩ =
    .ok parser.next ⟨given, parser.position, errors⟩ := by
  unfold peek
  dsimp only
  rw [shows_.here]

theorem isAtEnd_eq (sound : parser.Sound) : isAtEnd ⟨given, parser.position, errors⟩ =
    .ok parser.ahead.isEmpty ⟨given, parser.position, errors⟩ := by
  unfold isAtEnd
  rw [bind_of_ok _ (peek_eq shows_)]
  have same : parser.next.isEnd = parser.ahead.isEmpty := by
    rw [Bool.eq_iff_iff, sound.isEnd_next, List.isEmpty_iff]
  rw [same]
  rfl

theorem step_eq (sound : parser.Sound) : step ⟨given, parser.position, errors⟩ =
    .ok () ⟨given, parser.step.position, errors⟩ := by
  unfold step
  rw [bind_of_ok _ (isAtEnd_eq shows_ sound)]
  cases ahead : parser.ahead with
  | nil =>
      have stays : parser.step = parser := by simp [Parser.step, ahead]
      rw [stays]
      rfl
  | cons token rest =>
      have more : parser.ahead ≠ [] := by simp [ahead]
      rw [Parser.position_step more]
      simp [advance, shows_.position_lt_findIdx sound more]

theorem check_eq (sound : parser.Sound) (kind : Kind) :
    check kind ⟨given, parser.position, errors⟩ =
      .ok (parser.ahead.head?.map Token.kind = some kind)
        ⟨given, parser.position, errors⟩ := by
  unfold check
  rw [bind_of_ok _ (isAtEnd_eq shows_ sound)]
  cases ahead : parser.ahead with
  | nil => simp [pure, EStateM.pure]
  | cons token rest =>
      have next := Parser.next_of_ahead ahead
      simp only [List.isEmpty_cons, Bool.false_eq_true, if_false]
      rw [bind_of_ok _ (peek_eq shows_), next]
      simp [pure, EStateM.pure]

theorem anyM_check_eq (sound : parser.Sound) (kinds : List Kind) :
    kinds.anyM check ⟨given, parser.position, errors⟩ =
      .ok (parser.ahead.head?.any fun token => kinds.contains token.kind)
        ⟨given, parser.position, errors⟩ := by
  induction kinds with
  | nil => cases ahead : parser.ahead <;> simp [List.anyM, pure, EStateM.pure]
  | cons kind kinds ih =>
      unfold List.anyM
      rw [bind_of_ok _ (check_eq shows_ sound kind)]
      cases ahead : parser.ahead with
      | nil =>
          rw [ahead] at ih
          simpa using ih
      | cons token rest =>
          rw [ahead] at ih
          by_cases same : token.kind = kind
          · simp [same, pure, EStateM.pure]
          · simpa [same] using ih

theorem accepts_eq_true (sound : parser.Sound) {kinds : List Kind} {token : Token}
    {after : Parser} (run : Rule.accept? kinds parser = .ok (some token) after) :
    accepts kinds ⟨given, parser.position, errors⟩ = .ok true ⟨given, after.position, errors⟩ := by
  obtain ⟨rest, ahead, member, rfl⟩ := Rule.accept?_some run
  unfold accepts
  rw [bind_of_ok _ (anyM_check_eq shows_ sound kinds), ahead]
  simp only [List.head?_cons, Option.any_some, List.contains_iff_mem.mpr member, if_true]
  rw [bind_of_ok _ (step_eq shows_ sound)]
  rfl

theorem accepts_eq_false (sound : parser.Sound) {kinds : List Kind} {after : Parser}
    (run : Rule.accept? kinds parser = .ok none after) :
    accepts kinds ⟨given, parser.position, errors⟩ =
      .ok false ⟨given, parser.position, errors⟩ := by
  unfold accepts
  rw [bind_of_ok _ (anyM_check_eq shows_ sound kinds)]
  have stops := Rule.stops_of_accept? run
  cases ahead : parser.ahead with
  | nil => rfl
  | cons first rest =>
      have other : first.kind ∉ kinds := stops first (by simp [ahead])
      simp [other, pure, EStateM.pure]

theorem refuse_eq {α : Type} (cause : SyntaxCause) :
    (refuse cause : Action α) ⟨given, parser.position, errors⟩ =
      .error (.refused ⟨cause, parser.next⟩) ⟨given, parser.position, errors⟩ := by
  unfold refuse
  rw [bind_of_ok _ (peek_eq shows_)]
  rfl

end Look

theorem previous_eq {parser : Parser} {given : List Token} {errors : List SyntaxError}
    (shows_ : parser.Shows given parser.position) {token : Token} {earlier : List Token}
    (consumed : parser.consumed = token :: earlier) :
    previous ⟨given, parser.position, errors⟩ =
      .ok token ⟨given, parser.position, errors⟩ := by
  have place : parser.position = earlier.length + 1 := by
    rw [Parser.position, consumed, List.length_cons]
  have found := shows_ earlier.length (by omega)
  have here : tokenAt parser.tokens parser.ending earlier.length = token := by
    unfold tokenAt Parser.tokens
    rw [consumed, List.reverse_cons, List.append_assoc,
      List.drop_left' (List.length_reverse ..)]
    rfl
  rw [here] at found
  unfold previous
  simp only [place]
  rw [found]

/-- The result of a rule as a cursor shows it. -/
def seen {α : Type} (given : List Token) :
    EStateM.Result SyntaxError Parser α → EStateM.Result Halt Cursor α
  | .ok value after => .ok value (after.cursor given)
  | .error error after => .error (.refused error) (after.cursor given)

end Cursor

open Cursor (Action seen)

/-! ## Actions that mirror rules -/

/-- From the place of the parser on, the action does on a cursor what the rule does, and no token
behind the place where the rule ends makes a difference to it. -/
structure Mirrors {α : Type} (parser : Parser) (action : Action α) (rule : Rule α) : Prop where
  passed : ∃ read noted, Passed parser read noted (Rule.left rule parser)
  same : ∀ given, parser.Shows given (Rule.left rule parser).position →
    action (parser.cursor given) = seen given (rule parser)

namespace Mirrors

variable {α β : Type} {parser middle : Parser} {given : List Token}

theorem shows_start {action : Action α} {rule : Rule α} (mirrors : Mirrors parser action rule)
    (shows_ : parser.Shows given (Rule.left rule parser).position) :
    parser.Shows given parser.position := by
  obtain ⟨read, noted, passed⟩ := mirrors.passed
  exact shows_.mono passed.position_le

theorem pure (value : α) : Mirrors parser (Pure.pure value) (Pure.pure value) :=
  ⟨⟨[], [], .refl parser⟩, fun _ _ => rfl⟩

theorem bind {action : Action α} {rule : Rule α} {next : α → Action β} {rest : α → Rule β}
    (early : Mirrors parser action rule)
    (late : ∀ value middle, rule parser = .ok value middle → Mirrors middle (next value) (rest value)) :
    Mirrors parser (action >>= next) (rule >>= rest) := by
  obtain ⟨read, noted, passed⟩ := early.passed
  cases run : rule parser with
  | error failure middle =>
      have left := Rule.left_bind_of_error rest run
      rw [Rule.left_of_error run] at passed
      refine ⟨⟨read, noted, left ▸ passed⟩, fun given shows_ => ?_⟩
      rw [left, ← Rule.left_of_error run] at shows_
      have first := early.same given shows_
      rw [run] at first
      rw [bind_of_error _ first, bind_of_error rest run]
      rfl
  | ok value middle =>
      have left := Rule.left_bind_of_ok rest run
      rw [Rule.left_of_ok run] at passed
      have after := late value middle run
      obtain ⟨again, later, moved⟩ := after.passed
      refine ⟨⟨_, _, left ▸ passed.trans moved⟩, fun given shows_ => ?_⟩
      rw [left] at shows_
      have first := early.same given (shows_.mono (by
        rw [Rule.left_of_ok run]
        exact moved.position_le))
      rw [run] at first
      rw [bind_of_ok _ first, bind_of_ok rest run]
      exact after.same given (passed.shows.mpr shows_)

/-- A first part of the rule that cannot fail may be done by the action in its own way. -/
theorem along {action after : Action β} {rule : Rule α} {rest : α → Rule β} {value : α}
    {read : List Token} {noted : List SyntaxError} (run : rule parser = .ok value middle)
    (passed : Passed parser read noted middle)
    (moves : ∀ given, parser.Shows given middle.position →
      action (parser.cursor given) = after (middle.cursor given))
    (late : Mirrors middle after (rest value)) : Mirrors parser action (rule >>= rest) := by
  have left := Rule.left_bind_of_ok rest run
  obtain ⟨again, later, moved⟩ := late.passed
  refine ⟨⟨_, _, left ▸ passed.trans moved⟩, fun given shows_ => ?_⟩
  rw [left] at shows_
  rw [moves given (shows_.mono moved.position_le), bind_of_ok rest run]
  exact late.same given (passed.shows.mpr shows_)

theorem stays {action : Action α} {rule : Rule α} (left : Rule.left rule parser = parser)
    (same : ∀ given, parser.Shows given parser.position →
      action (parser.cursor given) = seen given (rule parser)) : Mirrors parser action rule := by
  refine ⟨⟨[], [], ?_⟩, fun given shows_ => same given ?_⟩
  · rw [left]
    exact .refl parser
  · rwa [left] at shows_

theorem peek : Mirrors parser Cursor.peek Rule.peek :=
  stays rfl fun _ shows_ => Cursor.peek_eq shows_

theorem looking {next : Token → Action α} {rule : Rule α}
    (late : Mirrors parser (next parser.next) rule) :
    Mirrors parser (Cursor.peek >>= next) rule := by
  refine ⟨late.passed, fun given shows_ => ?_⟩
  have looked : Cursor.peek (parser.cursor given) = _ := Cursor.peek_eq (late.shows_start shows_)
  rw [bind_of_ok _ looked]
  exact late.same given shows_

theorem refuse (cause : SyntaxCause) :
    Mirrors parser (Cursor.refuse cause : Action α) (Rule.fail cause) :=
  stays rfl fun _ shows_ => Cursor.refuse_eq shows_ cause

theorem note (error : SyntaxError) : Mirrors parser (Cursor.note error) (Rule.note error) := by
  refine ⟨Rule.confined_note error parser, fun given _ => ?_⟩
  simp [Cursor.note, Rule.note, seen, Parser.cursor, Parser.position]

theorem passed_accepted {kinds : List Kind} {token : Token}
    (run : Rule.accept? kinds parser = .ok (some token) middle) :
    Passed parser [token] [] middle := by
  obtain ⟨rest, ahead, -, rfl⟩ := Rule.accept?_some run
  exact .step ahead

theorem previous {next : Token → Action α} {rule : Rule α} {kinds : List Kind} {token : Token}
    (run : Rule.accept? kinds parser = .ok (some token) middle)
    (late : Mirrors middle (next token) rule) :
    Mirrors middle (Cursor.previous >>= next) rule := by
  have consumed : middle.consumed = token :: parser.consumed := by
    rw [(passed_accepted run).state]
    rfl
  refine ⟨late.passed, fun given shows_ => ?_⟩
  have found : Cursor.previous (middle.cursor given) = .ok token (middle.cursor given) :=
    Cursor.previous_eq (late.shows_start shows_) consumed
  rw [bind_of_ok _ found]
  exact late.same given shows_

theorem declined {action : Action α} {kinds : List Kind} {rest : Option Token → Rule α}
    (run : Rule.accept? kinds parser = .ok none middle) (late : Mirrors parser action (rest none)) :
    Mirrors parser action (Rule.accept? kinds >>= rest) := by
  have stays : middle = parser := by
    rcases Rule.accept?_ok run with ⟨-, same⟩ | ⟨token, something, -⟩
    · exact same
    · cases something
  subst stays
  exact .along run (.refl middle) (fun _ _ => rfl) late

section Sound

variable (sound : parser.Sound)

include sound

theorem step : Mirrors parser Cursor.step Rule.step := by
  obtain ⟨read, passed⟩ := Rule.passed_step parser
  refine ⟨⟨read, [], passed⟩, fun given shows_ => ?_⟩
  have moved : Cursor.step (parser.cursor given) = _ :=
    Cursor.step_eq (shows_.mono passed.position_le) sound
  rw [moved, ← passed.cursor given]
  rfl

theorem sees (kind : Kind) : Mirrors parser (Cursor.check kind) (Rule.sees kind) :=
  stays rfl fun _ shows_ => Cursor.check_eq shows_ sound kind

theorem stepped {action : Action α} {kinds : List Kind} {rest : Option Token → Rule α}
    {token : Token} (run : Rule.accept? kinds parser = .ok (some token) middle)
    (late : Mirrors middle action (rest (some token))) :
    Mirrors parser (Cursor.step >>= fun _ => action) (Rule.accept? kinds >>= rest) := by
  have passed := passed_accepted run
  obtain ⟨-, -, -, step⟩ := Rule.accept?_some run
  refine .along run passed (fun given shows_ => ?_) late
  have moved : Cursor.step (parser.cursor given) = _ :=
    Cursor.step_eq (shows_.mono passed.position_le) sound
  rw [bind_of_ok _ moved, passed.cursor given, step]

theorem choice {present absent : Action α} {kinds : List Kind} {rest : Option Token → Rule α}
    (taken : ∀ token middle, Rule.accept? kinds parser = .ok (some token) middle →
      Mirrors middle present (rest (some token)))
    (left : Mirrors parser absent (rest none)) :
    Mirrors parser (Cursor.accepts kinds >>= fun found => if found then present else absent)
      (Rule.accept? kinds >>= rest) := by
  cases run : Rule.accept? kinds parser with
  | error failure middle => exact absurd run Rule.accept?_not_error
  | ok accepted middle =>
      cases accepted with
      | none =>
          refine .declined run ⟨left.passed, fun given shows_ => ?_⟩
          have refused : Cursor.accepts kinds (parser.cursor given) = _ :=
            Cursor.accepts_eq_false (left.shows_start shows_) sound run
          rw [bind_of_ok _ refused]
          exact left.same given shows_
      | some token =>
          have passed := passed_accepted run
          refine .along run passed (fun given shows_ => ?_) (taken token middle run)
          have found : Cursor.accepts kinds (parser.cursor given) = _ :=
            Cursor.accepts_eq_true (shows_.mono passed.position_le) sound run
          rw [bind_of_ok _ found, passed.cursor given]
          rfl

theorem checked {present absent : Action α} {kind : Kind} {rest : Option Token → Rule α}
    (taken : ∀ token middle, Rule.accept? [kind] parser = .ok (some token) middle →
      Mirrors middle present (rest (some token)))
    (left : Mirrors parser absent (rest none)) :
    Mirrors parser
      (Cursor.check kind >>= fun found =>
        if found then Cursor.step >>= fun _ => present else absent)
      (Rule.accept? [kind] >>= rest) := by
  have chosen := choice sound taken left
  unfold Cursor.accepts at chosen
  simp only [List.anyM, bind_assoc] at chosen
  refine Eq.mp ?_ chosen
  congr 2
  funext found
  cases found with
  | false => simp
  | true => simp

theorem expect (kind : Kind) (context : String) :
    Mirrors parser (Cursor.expectOne kind context) (Rule.expect kind context) :=
  checked sound (fun token _ run => by simpa using previous run (.pure token)) (.refuse _)

theorem expectName : Mirrors parser Cursor.expectIdent Rule.expectName :=
  checked sound (fun token _ run => by simpa using previous run (.pure token)) (.refuse _)

end Sound

end Mirrors

end TreeWalk
