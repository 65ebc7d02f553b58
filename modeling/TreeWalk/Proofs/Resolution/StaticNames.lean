import TreeWalk.Proofs.Execution.Interpretation
import TreeWalk.Proofs.Execution.ScopeStack
import TreeWalk.Proofs.Resolution.Resolver

/-!
# Names resolve statically

Whatever a run does, the names bound at a mention are those that the resolver knows there.  So a
resolved mention always finds its name, and an unresolved one ends the run that reaches it.
-/

set_option autoImplicit false

namespace TreeWalk

open Semantics (Chain Names Task Truthy truthy_iff)
open Stateful (bind_eq_ok)

/-! ## The sets are those of a run -/

/-- The sets are the domains of the maps that the environment stands for. -/
structure Environment.Models (environment : Environment) (sets : NameSets) : Prop where
  formed : environment.WellFormed
  domains : environment.chain.domains = sets

namespace Environment.Models

variable {environment : Environment} {sets : NameSets} (models : environment.Models sets)

include models

theorem get?_ne_none_iff (name : String) : environment.get? name ≠ none ↔ sets.Has name := by
  rw [get?_eq_lookup models.formed, Chain.lookup_ne_none_iff, models.domains]

theorem define (name : String) (value : Value) :
    (environment.define name value).Models (sets.add name) := by
  refine ⟨models.formed.define name value, ?_⟩
  rw [chain_define models.formed, Chain.domains_define, models.domains]

theorem assign? {name : String} {value : Value} {changed : Environment}
    (assigned : environment.assign? name value = some changed) : changed.Models sets := by
  obtain ⟨agrees, keeps⟩ := assign?_spec models.formed name value
  rw [assigned] at agrees
  refine ⟨keeps changed assigned, ?_⟩
  rw [Chain.domains_assign? agrees.symm, models.domains]

theorem push : environment.push.Models (∅ :: sets) := by
  refine ⟨models.formed.push, ?_⟩
  rw [chain_push models.formed, Chain.domains, Names.domain_empty, models.domains]

theorem ne_nil : sets ≠ [] := models.domains ▸ environment.chain.domains_ne_nil

end Environment.Models

theorem Environment.Models.pop {environment : Environment} {names : Set String} {sets : NameSets}
    (models : environment.Models (names :: sets)) (nonempty : sets ≠ []) :
    environment.pop.Models sets := by
  have domains := models.domains
  cases inner : environment.chain with
  | outermost bound =>
      rw [inner] at domains
      exact absurd (List.cons.inj domains).2.symm nonempty
  | inside bound outer =>
      rw [inner] at domains
      obtain ⟨formed, popped⟩ := pop_spec models.formed inner
      refine ⟨formed, ?_⟩
      rw [popped]
      exact (List.cons.inj domains).2

theorem Expr.evaluate_models {expr : Expr} {start left : Environment} {value : Value}
    {sets : NameSets} (run : expr.evaluate start = .ok value left) (models : start.Models sets) :
    left.Models sets := by
  induction expr generalizing start left value with
  | literal =>
      cases run
      exact models
  | grouping inner ih => exact ih run models
  | reference name =>
      unfold evaluate Evaluation.read at run
      split at run
      · cases run
        exact models
      · cases run
  | assign name expr ih =>
      obtain ⟨result, middle, inner, run⟩ := bind_eq_ok.mp run
      obtain ⟨_, after, written, same⟩ := bind_eq_ok.mp run
      cases same
      unfold Evaluation.write at written
      split at written
      · next changed assigned =>
          cases written
          exact (ih inner models).assign? assigned
      · cases written
  | unary operator right ih =>
      obtain ⟨result, middle, inner, run⟩ := bind_eq_ok.mp run
      rw [← Evaluation.ofExcept_eq_ok run]
      exact ih inner models
  | binary one operator other firstIh secondIh =>
      obtain ⟨result, middle, first, run⟩ := bind_eq_ok.mp run
      obtain ⟨another, after, second, run⟩ := bind_eq_ok.mp run
      rw [← Evaluation.ofExcept_eq_ok run]
      exact secondIh second (firstIh first models)
  | logical one operator other firstIh secondIh =>
      obtain ⟨result, middle, first, run⟩ := bind_eq_ok.mp run
      split at run
      · cases run
        exact firstIh first models
      · exact secondIh run (firstIh first models)

namespace Execution

variable {machine left : Machine} {sets : NameSets}

theorem evaluate_models {expr : Expr} {value : Value}
    (run : evaluate expr machine = .ok value left) (models : machine.environment.Models sets) :
    left.environment.Models sets := by
  unfold evaluate at run
  split at run
  · next evaluated =>
      cases run
      exact Expr.evaluate_models evaluated models
  · cases run

theorem write_environment {text : String} {blamed : Token}
    (run : write text blamed machine = .ok () left) : left.environment = machine.environment := by
  unfold write at run
  split at run
  · cases run
    rfl
  · cases run

end Execution

/-- A successful action leads from sets to sets. -/
def Execution.Leads (action : Execution Unit) (sets after : NameSets) : Prop :=
  ∀ machine left, action machine = .ok () left → machine.environment.Models sets →
    left.environment.Models after

theorem Execution.leads_iterate {condition : Expr} {action : Execution Unit} {sets : NameSets}
    (leads : Leads action sets sets) (rounds : Nat) :
    Leads (iterate (evaluate condition) action rounds) sets sets := by
  induction rounds with
  | zero =>
      intro machine left run
      cases run
  | succ rounds ih =>
      intro machine left run models
      obtain ⟨value, middle, tested, run⟩ := bind_eq_ok.mp run
      have kept := evaluate_models tested models
      split at run
      · obtain ⟨_, next, round, run⟩ := bind_eq_ok.mp run
        exact ih next left run (leads middle next round kept)
      · cases run
        exact kept

mutual

theorem Stmt.execute_leads (budget : Nat) (sets : NameSets) :
    ∀ statement : Stmt, statement.Placed →
      Execution.Leads (statement.execute budget) sets (statement.declare sets)
  | .expression expr, _ => by
      intro machine left run models
      obtain ⟨value, middle, tested, run⟩ := bind_eq_ok.mp run
      cases run
      exact Execution.evaluate_models tested models
  | .print expr, _ => by
      intro machine left run models
      obtain ⟨value, middle, tested, run⟩ := bind_eq_ok.mp run
      obtain ⟨_, next, shown, broken⟩ := bind_eq_ok.mp run
      rw [Execution.write_environment broken, Execution.write_environment shown]
      exact Execution.evaluate_models tested models
  | .var name none, _ => by
      intro machine left run models
      cases run
      exact models.define name.lexeme .nil
  | .var name (some expr), _ => by
      intro machine left run models
      obtain ⟨value, middle, tested, run⟩ := bind_eq_ok.mp run
      cases run
      exact (Execution.evaluate_models tested models).define name.lexeme value
  | .block body, placed => by
      intro machine left run models
      rw [Execution.block_run] at run
      split at run
      · next inner =>
          cases run
          obtain ⟨names, dropped⟩ := Stmt.declareAll_cons body ∅ sets
          have behind := executeAll_leads budget (∅ :: sets) body placed _ _ inner models.push
          rw [dropped] at behind
          exact behind.pop models.ne_nil
      · cases run
  | .branch condition onTrue none, placed => by
      intro machine left run models
      obtain ⟨value, middle, tested, run⟩ := bind_eq_ok.mp run
      have kept := Execution.evaluate_models tested models
      split at run
      · exact execute_leads budget sets onTrue placed.1 middle left run kept
      · cases run
        rw [Stmt.declare, onTrue.declare_eq placed.1 placed.2]
        exact kept
  | .branch condition onTrue (some onFalse), placed => by
      intro machine left run models
      obtain ⟨value, middle, tested, run⟩ := bind_eq_ok.mp run
      have kept := Execution.evaluate_models tested models
      have taken := onTrue.declare_eq placed.1.1 placed.1.2 sets
      have refused := onFalse.declare_eq placed.2.1 placed.2.2 sets
      have leads := execute_leads budget sets onTrue placed.1.1
      have otherwise := execute_leads budget sets onFalse placed.2.1
      rw [taken] at leads
      rw [refused] at otherwise
      rw [Stmt.declare, taken, refused]
      split at run
      · exact leads middle left run kept
      · exact otherwise middle left run kept
  | .loop condition body, placed => by
      have leads := execute_leads budget sets body placed.1
      rw [Stmt.declare]
      rw [body.declare_eq placed.1 placed.2] at leads ⊢
      exact Execution.leads_iterate leads budget

theorem Stmt.executeAll_leads (budget : Nat) (sets : NameSets) :
    ∀ statements : List Stmt, Stmt.AllPlaced statements →
      Execution.Leads (Stmt.executeAll budget statements) sets (Stmt.declareAll statements sets)
  | [], _ => by
      intro machine left run models
      cases run
      exact models
  | statement :: rest, placed => by
      intro machine left run models
      obtain ⟨_, middle, first, run⟩ := bind_eq_ok.mp run
      have behind := execute_leads budget sets statement placed.1 machine middle first models
      exact executeAll_leads budget (statement.declare sets) rest placed.2 middle left run behind

end

/-! ## Mentions that are reached -/

theorem Expr.Mention.models_of_reached {expr : Expr} (mention : expr.Mention)
    {start there : Environment} {sets : NameSets} (reached : mention.Reached start there)
    (models : start.Models sets) : there.Models sets := by
  induction mention generalizing start with
  | reference name =>
      cases reached
      exact models
  | target name value =>
      obtain ⟨result, run⟩ := reached
      exact evaluate_models run models
  | assigned _ _ ih | grouped _ ih | operand _ _ ih | left _ _ _ ih | first _ _ _ ih =>
      exact ih reached models
  | right operator one mention ih =>
      obtain ⟨value, middle, first, reached⟩ := reached
      exact ih reached (evaluate_models first models)
  | second operator one mention ih =>
      obtain ⟨value, middle, first, continues, reached⟩ := reached
      exact ih reached (evaluate_models first models)

/-- A mention in an expression sees the names that are bound when the expression starts. -/
theorem Expr.Mention.has_iff {expr : Expr} (mention : expr.Mention) {start there : Environment}
    {sets : NameSets} (reached : mention.Reached start there) (models : start.Models sets) :
    sets.Has mention.name.lexeme ↔ there.get? mention.name.lexeme ≠ none :=
  ((mention.models_of_reached reached models).get?_ne_none_iff _).symm

theorem Execution.Rounds.models {condition : Expr} {body : Stmt} {machine last : Machine}
    {sets : NameSets} (rounds : Rounds condition body machine last) (placed : body.Placed)
    (other : ¬ body.IsVar) (models : machine.environment.Models sets) :
    last.environment.Models sets := by
  induction rounds with
  | none => exact models
  | @again last middle next value budget earlier tested truthy round ih =>
      have behind := body.execute_leads budget sets placed middle next round
        (evaluate_models tested ih)
      rwa [body.declare_eq placed other] at behind

namespace Semantics.Task

def Placed : Task → Prop
  | one statement => statement.Placed
  | all statements => Stmt.AllPlaced statements

/-- The resolver marks a mention as resolved if and only if a run finds its name there. -/
theorem Mention.resolved_iff {task : Task} (mention : task.Mention) {machine : Machine}
    {there : Environment} {sets : NameSets} (placed : task.Placed)
    (reached : mention.Reached machine there) (models : machine.environment.Models sets) :
    mention.Resolved sets ↔ there.get? mention.name.lexeme ≠ none := by
  induction mention generalizing machine sets with
  | expression mention | print mention | initializer _ mention | choice _ _ mention =>
      exact mention.has_iff reached models
  | block mention ih => exact ih placed reached models.push
  | @onTrue condition onTrue onFalse mention ih =>
      obtain ⟨value, middle, tested, truthy, taken⟩ := reached
      have inner : onTrue.Placed := by
        cases onFalse with
        | none => exact placed.1
        | some _ => exact placed.1.1
      exact ih inner taken (Execution.evaluate_models tested models)
  | onFalse condition before mention ih =>
      obtain ⟨value, middle, tested, falsy, taken⟩ := reached
      -- the resolver has walked the other statement before, which the run has skipped
      have same := before.declare_eq placed.1.1 placed.1.2 sets
      rw [← same] at models
      exact ih placed.2.1 taken (Execution.evaluate_models tested models)
  | test body mention =>
      obtain ⟨last, rounds, reached⟩ := reached
      exact mention.has_iff reached (rounds.models placed.1 placed.2 models)
  | round condition mention ih =>
      obtain ⟨last, value, middle, rounds, tested, truthy, reached⟩ := reached
      have kept := rounds.models placed.1 placed.2 models
      exact ih placed.1 reached (Execution.evaluate_models tested kept)
  | head rest mention ih => exact ih placed.1 reached models
  | tail before mention ih =>
      obtain ⟨budget, middle, run, reached⟩ := reached
      have behind := before.execute_leads budget sets placed.1 machine middle run models
      exact ih placed.2 reached behind

end Semantics.Task

/-! ## Runs of programs -/

namespace Environment

theorem models_globals {environment : Environment} {globals : Set String}
    (formed : environment.WellFormed) (outermost : environment.depth = 1)
    (bound : ∀ name, name ∈ globals ↔ environment.isDefined name = true) :
    environment.Models [globals] := by
  have place : environment.current = 0 := by
    have current := formed.current
    unfold depth at outermost
    omega
  have one : environment.chain = .outermost (environment.namesAt 0) := by
    unfold chain
    rw [place, chainFrom]
  refine ⟨formed, ?_⟩
  rw [one, Chain.domains]
  congr 1
  ext name
  rw [bound, isDefined_eq_lookup formed, one]
  exact Option.isSome_iff_ne_none.symm

end Environment

/-- What the marks of the resolver tell about a run of the program on the machine. -/
structure Machine.ResolvesNames (machine : Machine) (program : List Stmt) (globals : Set String) :
    Prop where
  /-- A resolved mention can be read and assigned to whenever the run gets there. -/
  resolved : ∀ (mention : (Task.all program).Mention) (there : Environment),
    mention.Reached machine there → mention.Resolved [globals] →
      (∃ value, Evaluation.read mention.name there = .ok value there) ∧
        ∀ value, ∃ changed, Evaluation.write mention.name value there = .ok () changed
  /-- An unresolved mention ends the run that gets there. -/
  unresolved : ∀ (mention : (Task.all program).Mention) (there : Environment),
    mention.Reached machine there → ¬ mention.Resolved [globals] →
      ∃ left,
        machine.Ends program (some ⟨.undefinedVariable mention.name.lexeme, mention.name⟩) left
  /-- An undefined variable comes from an unresolved mention. -/
  raised : ∀ (name : String) (token : Token) (left : Machine),
    machine.Ends program (some ⟨.undefinedVariable name, token⟩) left →
      ∃ (mention : (Task.all program).Mention) (there : Environment),
        mention.Reached machine there ∧ ¬ mention.Resolved [globals] ∧ token = mention.name ∧
          name = token.lexeme
  safe : (∀ mention : (Task.all program).Mention, mention.Resolved [globals]) →
    ∀ (name : String) (token : Token) (left : Machine),
      ¬ machine.Ends program (some ⟨.undefinedVariable name, token⟩) left

/-- On an environment with one scope the resolver decides for the statements of every parse, with
errors or without, which of their mentions find their name. -/
theorem names_resolve_statically (tokens : List Token) {machine : Machine} {globals : Set String}
    (formed : machine.environment.WellFormed) (outermost : machine.environment.depth = 1)
    (bound : ∀ name, name ∈ globals ↔ machine.environment.isDefined name = true) :
    machine.ResolvesNames (Parsed.ofTokens tokens).statements globals := by
  have models := Environment.models_globals formed outermost bound
  have placed := Parsed.allPlaced tokens
  have marks (mention : (Task.all (Parsed.ofTokens tokens).statements).Mention)
      (there : Environment) (reached : mention.Reached machine there) :=
    mention.resolved_iff placed reached models
  have raised (name : String) (token : Token) (left : Machine)
      (ends : machine.Ends (Parsed.ofTokens tokens).statements
        (some ⟨.undefinedVariable name, token⟩) left) :
      ∃ (mention : (Task.all (Parsed.ofTokens tokens).statements).Mention) (there : Environment),
        mention.Reached machine there ∧ ¬ mention.Resolved [globals] ∧ token = mention.name ∧
          name = token.lexeme := by
    obtain ⟨budget, run⟩ := ends
    obtain ⟨ended, inner, -⟩ := Machine.interpret_eq_finished run
    obtain ⟨mention, there, reached, free, same⟩ :=
      Stmt.executeAll_accounts budget _ machine ended _ inner ⟨name, rfl⟩
    cases same
    exact ⟨mention, there, reached, fun known => (marks mention there reached).mp known free, rfl,
      rfl⟩
  refine ⟨?_, ?_, raised, ?_⟩
  · intro mention there reached known
    have defined : there.isDefined mention.name.lexeme = true := by
      rw [Environment.isDefined_eq_isSome, Option.isSome_iff_ne_none]
      exact (marks mention there reached).mp known
    exact ⟨(there.consistent mention.name .nil).get.mpr defined,
      fun value => (there.consistent mention.name value).assign.mpr defined⟩
  · intro mention there reached unknown
    have free := not_not.mp (mt (marks mention there reached).mpr unknown)
    obtain ⟨budget, ended, run⟩ := mention.fails reached free
    obtain ⟨left, whole, -⟩ := Machine.interpret_of_finished run
    exact ⟨left, budget, whole⟩
  · intro all name token left ends
    obtain ⟨mention, there, reached, unknown, -⟩ := raised name token left ends
    exact unknown (all mention)

/-- Behind the block that declares it `a` is unresolved, and a run ends there. -/
theorem resolvesNames_block :
    Environment.empty.WellFormed ∧ Environment.empty.depth = 1 ∧
      (∀ name, name ∈ (∅ : Set String) ↔ Environment.empty.isDefined name = true) ∧
      (Machine.start .unfailing).ResolvesNames
        (Parsed.ofTokens (Scan.ofSource "{ var a; a; } a;").tokens).statements ∅ ∧
      ∃ left, (Machine.start .unfailing).Ends
        (Parsed.ofTokens (Scan.ofSource "{ var a; a; } a;").tokens).statements
        (some ⟨.undefinedVariable "a", ⟨.identifier, "a", none, 1, ⟨14, 15⟩⟩⟩) left := by
  have formed := Environment.wellFormed_empty
  have bound (name : String) :
      name ∈ (∅ : Set String) ↔ Environment.empty.isDefined name = true := by
    rw [Environment.isDefined_eq_lookup formed]
    exact iff_of_false id Bool.false_ne_true
  have resolves := names_resolve_statically (Scan.ofSource "{ var a; a; } a;").tokens
    (show (Machine.start .unfailing).environment.WellFormed from formed) rfl bound
  have parsed : (Parsed.ofTokens (Scan.ofSource "{ var a; a; } a;").tokens).statements =
      [.block [.var ⟨.identifier, "a", none, 1, ⟨6, 7⟩⟩ none,
        .expression (.reference ⟨.identifier, "a", none, 1, ⟨9, 10⟩⟩)],
      .expression (.reference ⟨.identifier, "a", none, 1, ⟨14, 15⟩⟩)] := rfl
  rw [parsed] at resolves ⊢
  refine ⟨formed, rfl, bound, resolves, ?_⟩
  exact resolves.unresolved (.tail _ (.head [] (.expression (.reference _)))) .empty
    ⟨0, _, rfl, rfl⟩ (by simp [Task.Mention.Resolved, Stmt.declare, NameSets.Has])

end TreeWalk
