import TreeWalk.Proofs.Stateful
import TreeWalk.Syntax.Parser

/-!
# What rules do to a parser

A rule that succeeds has moved tokens from ahead to the consumed side and may have noted errors;
nothing else changes.  `Passed` says so for two parsers, and `Rule.Describes` for all results of a
rule.  The lemmas on the elementary rules come in two forms: what a result says about the tokens,
and which result given tokens lead to.
-/

set_option autoImplicit false

namespace TreeWalk

/-- The parser when these tokens are read, these errors noted, and `rest` is still ahead. -/
def Parser.after (parser : Parser) (read : List Token) (noted : List SyntaxError)
    (rest : List Token) : Parser :=
  { parser with
    consumed := read.reverse ++ parser.consumed
    ahead := rest
    errors := noted ++ parser.errors }

namespace Parser

@[simp] theorem after_after (parser : Parser) (read again : List Token)
    (noted later : List SyntaxError) (middle rest : List Token) :
    (parser.after read noted middle).after again later rest =
      parser.after (read ++ again) (later ++ noted) rest := by
  simp [after]

theorem after_nil (parser : Parser) : parser.after [] [] parser.ahead = parser := rfl

/-- A parser has come from another by reading tokens and noting errors. -/
structure Passed (before : Parser) (read : List Token) (noted : List SyntaxError)
    (after : Parser) : Prop where
  ahead : before.ahead = read ++ after.ahead
  state : after = before.after read noted after.ahead

theorem Passed.refl (parser : Parser) : Passed parser [] [] parser := ⟨rfl, rfl⟩

theorem Passed.trans {first second third : Parser} {read again : List Token}
    {noted later : List SyntaxError} (early : Passed first read noted second)
    (late : Passed second again later third) :
    Passed first (read ++ again) (later ++ noted) third := by
  refine ⟨?_, ?_⟩
  · rw [early.ahead, late.ahead, List.append_assoc]
  · rw [← after_after first read again noted later second.ahead, ← early.state]
    exact late.state

theorem Passed.ending {before after : Parser} {read : List Token} {noted : List SyntaxError}
    (passed : Passed before read noted after) : after.ending = before.ending := by
  rw [passed.state]
  rfl

theorem Passed.last {before after : Parser} {read : List Token} {noted : List SyntaxError}
    (passed : Passed before read noted after) (last : before.ending.kind = .eof) :
    after.ending.kind = .eof := by
  rw [passed.ending]
  exact last

theorem Passed.errors {before after : Parser} {read : List Token} {noted : List SyntaxError}
    (passed : Passed before read noted after) : after.errors = noted ++ before.errors := by
  rw [passed.state]
  rfl

theorem next_of_ahead {parser : Parser} {token : Token} {rest : List Token}
    (ahead : parser.ahead = token :: rest) : parser.next = token := by
  simp [next, ahead]

theorem step_of_ahead {parser : Parser} {token : Token} {rest : List Token}
    (ahead : parser.ahead = token :: rest) : parser.step = parser.after [token] [] rest := by
  simp [step, ahead, after]

theorem Passed.step {parser : Parser} {token : Token} {rest : List Token}
    (ahead : parser.ahead = token :: rest) : Passed parser [token] [] parser.step := by
  rw [step_of_ahead ahead]
  exact ⟨ahead, rfl⟩

/-- None of these kinds is next. -/
def Stops (kinds : List Kind) (ahead : List Token) : Prop :=
  ∀ token ∈ ahead.head?, token.kind ∉ kinds

theorem Stops.mono {kinds fewer : List Kind} {ahead : List Token}
    (subset : ∀ kind ∈ fewer, kind ∈ kinds) (stops : Stops kinds ahead) : Stops fewer ahead :=
  fun token head member => stops token head (subset _ member)

theorem stops_nil (ahead : List Token) : Stops [] ahead := fun _ _ => List.not_mem_nil

theorem stops_end (kinds : List Kind) : Stops kinds [] := by
  simp [Stops]

theorem stops_cons {kinds : List Kind} {token : Token} {rest : List Token}
    (other : token.kind ∉ kinds) : Stops kinds (token :: rest) := by
  intro next head
  cases Option.some.inj head
  exact other

theorem stops_of_starts {starts kinds : List Kind} {tokens : List Token}
    (begins : ∃ token others, tokens = token :: others ∧ token.kind ∈ starts)
    (disjoint : ∀ kind ∈ starts, kind ∉ kinds) (rest : List Token) :
    Stops kinds (tokens ++ rest) := by
  obtain ⟨token, others, rfl, member⟩ := begins
  exact stops_cons (disjoint token.kind member)

end Parser

open TreeWalk.Parser (Passed Stops)
open Stateful (bind_eq_ok bind_of_ok map_of_ok)

namespace Rule

variable {α β : Type}

/-- What a rule that succeeds has read, the result it gives and the errors it notes. -/
def Describes (rule : Rule α) (description : List Token → α → List SyntaxError → Prop) : Prop :=
  ∀ before result after, before.ending.kind = .eof → rule before = .ok result after →
    ∃ read noted, Passed before read noted after ∧ description read result noted

theorem Describes.mono {rule : Rule α} {description more : List Token → α → List SyntaxError → Prop}
    (describes : Describes rule description)
    (grows : ∀ {read result noted}, description read result noted → more read result noted) :
    Describes rule more := by
  intro before result after last run
  obtain ⟨tokens, noted, passed, reads⟩ := describes _ _ _ last run
  exact ⟨tokens, noted, passed, grows reads⟩

theorem Describes.bound {next : Nat → Rule α}
    {description : List Token → α → List SyntaxError → Prop}
    (describes : ∀ count, Describes (next count) description) :
    Describes (Rule.bound >>= next) description := by
  intro before result after last run
  obtain ⟨count, same, boundRun, nextRun⟩ := bind_eq_ok.mp run
  cases boundRun
  exact describes _ _ _ _ last nextRun

/-- A rule reads these tokens whenever none of the kinds in `stops` is behind them. -/
def Accepts (rule : Rule α) (stops : List Kind) (tokens : List Token) (result : α)
    (noted : List SyntaxError) : Prop :=
  ∀ parser rest, parser.ahead = tokens ++ rest → Stops stops rest →
    rule parser = .ok result (parser.after tokens noted rest)

@[simp] theorem pure_apply (value : α) (parser : Parser) :
    (pure value : Rule α) parser = .ok value parser := rfl

/-! ## Results and what they say -/

theorem accept?_ok {kinds : List Kind} {before after : Parser} {result : Option Token}
    (run : accept? kinds before = .ok result after) :
    (result = none ∧ after = before) ∨
      ∃ token, result = some token ∧ token.kind ∈ kinds ∧ Passed before [token] [] after := by
  unfold accept? at run
  split at run
  · cases run
    exact Or.inl ⟨rfl, rfl⟩
  · next token rest ahead =>
      split at run
      · next member =>
          cases run
          exact Or.inr ⟨token, rfl, by simpa using member, .step ahead⟩
      · cases run
        exact Or.inl ⟨rfl, rfl⟩

theorem stops_of_accept? {kinds : List Kind} {before after : Parser}
    (run : accept? kinds before = .ok none after) : Stops kinds before.ahead := by
  unfold accept? at run
  split at run
  · next ahead =>
      intro token head
      simp [ahead] at head
  · next token rest ahead =>
      split at run
      · cases run
      · next other =>
          rw [ahead]
          exact Parser.stops_cons (by simpa using other)

theorem expect_ok {kind : Kind} {context : String} {before after : Parser} {token : Token}
    (run : expect kind context before = .ok token after) :
    token.kind = kind ∧ Passed before [token] [] after := by
  obtain ⟨accepted, middle, acceptRun, finish⟩ := bind_eq_ok.mp run
  rcases accept?_ok acceptRun with ⟨rfl, rfl⟩ | ⟨found, rfl, member, passed⟩
  · cases finish
  · cases finish
    exact ⟨List.mem_singleton.mp member, passed⟩

theorem expectName_ok {before after : Parser} {token : Token}
    (run : expectName before = .ok token after) :
    token.kind = .identifier ∧ Passed before [token] [] after := by
  obtain ⟨accepted, middle, acceptRun, finish⟩ := bind_eq_ok.mp run
  rcases accept?_ok acceptRun with ⟨rfl, rfl⟩ | ⟨found, rfl, member, passed⟩
  · cases finish
  · cases finish
    exact ⟨List.mem_singleton.mp member, passed⟩

theorem next_ahead {parser : Parser} (last : parser.ending.kind = .eof)
    (inside : parser.next.kind ≠ .eof) : ∃ rest, parser.ahead = parser.next :: rest := by
  unfold Parser.next at inside ⊢
  cases ahead : parser.ahead with
  | nil =>
      rw [ahead] at inside
      exact absurd last inside
  | cons token rest => exact ⟨rest, rfl⟩

/-! ## Tokens and where they lead -/

theorem accept?_of_mem {kinds : List Kind} {parser : Parser} {token : Token} {rest : List Token}
    (ahead : parser.ahead = token :: rest) (member : token.kind ∈ kinds) :
    accept? kinds parser = .ok (some token) (parser.after [token] [] rest) := by
  simp [accept?, ahead, member, Parser.step_of_ahead ahead]

theorem accept?_of_stops {kinds : List Kind} {parser : Parser} (stops : Stops kinds parser.ahead) :
    accept? kinds parser = .ok none parser := by
  unfold accept?
  cases ahead : parser.ahead with
  | nil => rfl
  | cons token rest =>
      have other := stops token (by simp [ahead])
      simp [other]

theorem expect_of_kind {kind : Kind} {parser : Parser} {token : Token} {rest : List Token}
    (context : String) (ahead : parser.ahead = token :: rest) (same : token.kind = kind) :
    expect kind context parser = .ok token (parser.after [token] [] rest) := by
  unfold expect
  rw [bind_of_ok _ (accept?_of_mem ahead (List.mem_singleton.mpr same))]
  rfl

theorem expectName_of_kind {parser : Parser} {token : Token} {rest : List Token}
    (ahead : parser.ahead = token :: rest) (same : token.kind = .identifier) :
    expectName parser = .ok token (parser.after [token] [] rest) := by
  unfold expectName
  rw [bind_of_ok _ (accept?_of_mem ahead (List.mem_singleton.mpr same))]
  rfl

theorem Accepts.weaken {rule : Rule α} {stops more : List Kind} {tokens : List Token} {result : α}
    {noted : List SyntaxError} (accepts : Accepts rule stops tokens result noted)
    (subset : ∀ kind ∈ stops, kind ∈ more) : Accepts rule more tokens result noted :=
  fun parser rest ahead stopped => accepts parser rest ahead (stopped.mono subset)

theorem Accepts.bind {first : Rule α} {next : α → Rule β} {early late : List Kind}
    {front back : List Token} {value : α} {result : β} {noted later : List SyntaxError}
    (before : Accepts first early front value noted)
    (after : Accepts (next value) late back result later)
    (follows : ∀ rest, Stops late rest → Stops early (back ++ rest)) :
    Accepts (first >>= next) late (front ++ back) result (later ++ noted) := by
  intro parser rest ahead stops
  rw [List.append_assoc] at ahead
  have run := before parser (back ++ rest) ahead (follows rest stops)
  have continued := after (parser.after front noted (back ++ rest)) rest rfl stops
  rw [Parser.after_after] at continued
  exact (bind_of_ok next run).trans continued

theorem follows_any {late : List Kind} (back : List Token) :
    ∀ rest, Stops late rest → Stops [] (back ++ rest) :=
  fun rest _ => Parser.stops_nil (back ++ rest)

theorem Accepts.cons {first : Rule α} {next : α → Rule β} {late : List Kind} {token : Token}
    {tokens : List Token} {value : α} {result : β} {noted : List SyntaxError}
    (before : Accepts first [] [token] value [])
    (after : Accepts (next value) late tokens result noted) :
    Accepts (first >>= next) late (token :: tokens) result noted := by
  have whole := before.bind after fun rest _ => Parser.stops_nil (tokens ++ rest)
  rwa [List.append_nil] at whole

theorem Accepts.pass {first : Rule α} {next : α → Rule β} {early late : List Kind}
    {tokens : List Token} {value : α} {result : β} {noted : List SyntaxError}
    (before : Accepts first early [] value [])
    (after : Accepts (next value) late tokens result noted)
    (follows : ∀ rest, Stops late rest → Stops early (tokens ++ rest)) :
    Accepts (first >>= next) late tokens result noted := by
  have whole := before.bind after follows
  rwa [List.append_nil] at whole

theorem Accepts.yields {rule : Rule α} (change : α → β) {stops : List Kind} {tokens : List Token}
    {value : α} {noted : List SyntaxError} (accepts : Accepts rule stops tokens value noted) :
    Accepts (rule >>= fun value => pure (change value)) stops tokens (change value) noted :=
  fun parser rest ahead stopped => bind_of_ok _ (accepts parser rest ahead stopped)

theorem Accepts.last {first : Rule α} {next : α → Rule β} {stops : List Kind}
    {tokens : List Token} {value : α} {result : β} {noted later : List SyntaxError}
    (before : Accepts first stops tokens value noted)
    (after : Accepts (next value) stops [] result later) :
    Accepts (first >>= next) stops tokens result (later ++ noted) := by
  have whole := before.bind after fun _ stopped => stopped
  rwa [List.append_nil] at whole

/-- A rule and a token that ends what it reads. -/
theorem Accepts.close {first : Rule α} {next : α → Rule β} {early late : List Kind}
    {tokens : List Token} {token : Token} {value : α} {result : β} {noted : List SyntaxError}
    (before : Accepts first early tokens value noted)
    (after : Accepts (next value) late [token] result [])
    (other : token.kind ∉ early) :
    Accepts (first >>= next) late (tokens ++ [token]) result noted :=
  before.bind after fun _ _ => Parser.stops_cons other

theorem accepts_pure {stops : List Kind} (value : α) :
    Accepts (pure value : Rule α) stops [] value [] :=
  fun parser rest ahead _ => by
    rw [List.nil_append] at ahead
    rw [← ahead, Parser.after_nil]
    rfl

theorem Accepts.given {next : α → Rule β} {stops : List Kind} {tokens : List Token} {value : α}
    {result : β} {noted : List SyntaxError}
    (accepts : Accepts (next value) stops tokens result noted) :
    Accepts (pure value >>= next) stops tokens result noted := by
  intro parser rest ahead stopped
  exact (bind_of_ok next (pure_apply value parser)).trans (accepts parser rest ahead stopped)

theorem Accepts.map {rule : Rule α} (change : α → β) {stops : List Kind} {tokens : List Token}
    {value : α} {noted : List SyntaxError} (accepts : Accepts rule stops tokens value noted) :
    Accepts (change <$> rule) stops tokens (change value) noted :=
  fun parser rest ahead stopped => map_of_ok change (accepts parser rest ahead stopped)

theorem accepts_some {kinds : List Kind} {token : Token} (member : token.kind ∈ kinds) :
    Accepts (accept? kinds) [] [token] (some token) [] :=
  fun _ _ ahead _ => accept?_of_mem ahead member

theorem accepts_none (kinds : List Kind) : Accepts (accept? kinds) kinds [] none [] :=
  fun parser rest ahead stops => by
    rw [List.nil_append] at ahead
    rw [← ahead] at stops
    rw [accept?_of_stops stops, ← ahead, Parser.after_nil]

theorem accepts_expect {kind : Kind} {token : Token} (context : String)
    (same : token.kind = kind) : Accepts (expect kind context) [] [token] token [] :=
  fun _ _ ahead _ => expect_of_kind context ahead same

theorem accepts_expectName {token : Token} (same : token.kind = .identifier) :
    Accepts expectName [] [token] token [] :=
  fun _ _ ahead _ => expectName_of_kind ahead same

theorem accepts_step (token : Token) : Accepts step [] [token] () [] :=
  fun _ _ ahead _ => by
    unfold step
    rw [Parser.step_of_ahead ahead]
    rfl

theorem Accepts.peek {next : Token → Rule β} {stops : List Kind} {token : Token}
    {tokens : List Token} {result : β} {noted : List SyntaxError}
    (accepts : Accepts (next token) stops (token :: tokens) result noted) :
    Accepts (Rule.peek >>= next) stops (token :: tokens) result noted := by
  intro parser rest ahead stopped
  have peeked : Rule.peek parser = .ok token parser := by
    unfold Rule.peek
    rw [Parser.next_of_ahead ahead]
  exact (bind_of_ok next peeked).trans (accepts parser rest ahead stopped)

theorem Accepts.sees {next : Bool → Rule β} {kind : Kind} {stops : List Kind} {token : Token}
    {tokens : List Token} {result : β} {noted : List SyntaxError}
    (accepts : Accepts (next (token.kind = kind)) stops (token :: tokens) result noted) :
    Accepts (Rule.sees kind >>= next) stops (token :: tokens) result noted := by
  intro parser rest ahead stopped
  have seen : Rule.sees kind parser = .ok (decide (token.kind = kind)) parser := by
    simp [Rule.sees, ahead]
  exact (bind_of_ok next seen).trans (accepts parser rest ahead stopped)

theorem Accepts.bound {next : Nat → Rule β} {stops : List Kind} {tokens : List Token} {result : β}
    {noted : List SyntaxError}
    (accepts : ∀ count, tokens.length < count → Accepts (next count) stops tokens result noted) :
    Accepts (Rule.bound >>= next) stops tokens result noted := by
  intro parser rest ahead stopped
  have enough : tokens.length < parser.ahead.length + 1 := by
    rw [ahead, List.length_append]
    omega
  exact accepts _ enough parser rest ahead stopped

end Rule

end TreeWalk
