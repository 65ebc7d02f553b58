import TreeWalk.Proofs.Diagnosis.Blame
import TreeWalk.Proofs.Printing.Expressions
import TreeWalk.Proofs.Similarity.Respacing

/-!
# Statements can be told from their text

A statement is shown as a form whose head is a word of its own.  Statements of parsed programs have
forms that can be read from their text, so that two of them with the same text are the same
statement but for lines and spans.
-/

set_option autoImplicit false

namespace TreeWalk

open TreeWalk.Alignment (anywhere)
open Lexical (Matches)
open PrefixForm (behind)

/-! ## Forms -/

mutual

def Stmt.form : Stmt → PrefixForm
  | expression expr => .node ";" [expr.form]
  | print expr => .node "print" [expr.form]
  | var name none => .node "var" [.word name.lexeme]
  | var name (some initializer) =>
      .node "var" [.word name.lexeme, .word "=", initializer.form]
  | block body => .node "block" (forms body)
  | branch condition onTrue none => .node "if" [condition.form, onTrue.form]
  | branch condition onTrue (some onFalse) =>
      .node "if" [condition.form, onTrue.form, onFalse.form]
  | loop condition body => .node "while" [condition.form, body.form]

def Stmt.forms : List Stmt → List PrefixForm
  | [] => []
  | statement :: rest => statement.form :: forms rest

end

mutual

theorem Stmt.text_form : (stmt : Stmt) → stmt.form.text = stmt.display.toList
  | expression expr | print expr => by
      simp [form, display, PrefixForm.text, behind, expr.text_form]
  | var name none => by simp [form, display, PrefixForm.text, behind]
  | var name (some initializer) => by
      simp [form, display, PrefixForm.text, behind, initializer.text_form]
  | block body => by simp [form, display, PrefixForm.text, behind_forms body]
  | branch condition onTrue none => by
      simp [form, display, PrefixForm.text, behind, condition.text_form, onTrue.text_form]
  | branch condition onTrue (some onFalse) => by
      simp [form, display, PrefixForm.text, behind, condition.text_form, onTrue.text_form,
        onFalse.text_form]
  | loop condition body => by
      simp [form, display, PrefixForm.text, behind, condition.text_form, body.text_form]

theorem Stmt.behind_forms : (body : List Stmt) →
    behind (forms body) = (displayEach body).toList ++ [')']
  | [] => rfl
  | statement :: rest => by
      simp [forms, displayEach, behind, statement.text_form, behind_forms rest]

end

/-! ## Statements -/

mutual

/-- The names that a statement declares, also those in its blocks and branches. -/
def Stmt.varNames : Stmt → List Token
  | expression _ | print _ => []
  | var name _ => [name]
  | block body => allVarNames body
  | branch _ onTrue none => onTrue.varNames
  | branch _ onTrue (some onFalse) => onTrue.varNames ++ onFalse.varNames
  | loop _ body => body.varNames

def Stmt.allVarNames : List Stmt → List Token
  | [] => []
  | statement :: rest => statement.varNames ++ allVarNames rest

end

mutual

def Stmt.Legible : Stmt → Prop
  | expression expr | print expr => expr.Legible
  | var name none => name.ReadAs [.identifier]
  | var name (some initializer) => name.ReadAs [.identifier] ∧ initializer.Legible
  | block body => AllLegible body
  | branch condition onTrue none => condition.Legible ∧ onTrue.Legible
  | branch condition onTrue (some onFalse) =>
      condition.Legible ∧ onTrue.Legible ∧ onFalse.Legible
  | loop condition body => condition.Legible ∧ body.Legible

def Stmt.AllLegible : List Stmt → Prop
  | [] => True
  | statement :: rest => statement.Legible ∧ AllLegible rest

end

mutual

theorem Stmt.legible_form : {stmt : Stmt} → stmt.Legible → stmt.form.Legible
  | expression _, legible | print _, legible =>
      ⟨by decide, Expr.legible_form legible, trivial⟩
  | var _ none, legible => ⟨by decide, .bare (legible.bare (by decide)), trivial⟩
  | var _ (some _), legible =>
      ⟨by decide, .bare (legible.1.bare (by decide)), .bare (by decide),
        Expr.legible_form legible.2, trivial⟩
  | block _, legible => ⟨by decide, legible_forms legible⟩
  | branch _ _ none, legible =>
      ⟨by decide, Expr.legible_form legible.1, legible_form legible.2, trivial⟩
  | branch _ _ (some _), legible =>
      ⟨by decide, Expr.legible_form legible.1, legible_form legible.2.1,
        legible_form legible.2.2, trivial⟩
  | loop _ _, legible =>
      ⟨by decide, Expr.legible_form legible.1, legible_form legible.2, trivial⟩

theorem Stmt.legible_forms : {body : List Stmt} → AllLegible body →
    PrefixForm.AllLegible (forms body)
  | [], _ => trivial
  | _ :: _, legible => ⟨legible_form legible.1, legible_forms legible.2⟩

end

/-- The word that stands in front of a shown statement. -/
def Stmt.head : Stmt → String
  | expression _ => ";"
  | print _ => "print"
  | var _ _ => "var"
  | block _ => "block"
  | branch _ _ _ => "if"
  | loop _ _ => "while"

theorem Stmt.form_eq_node (stmt : Stmt) : ∃ items, stmt.form = .node stmt.head items := by
  cases stmt with
  | var _ initializer => cases initializer <;> exact ⟨_, rfl⟩
  | branch _ _ onFalse => cases onFalse <;> exact ⟨_, rfl⟩
  | _ => exact ⟨_, rfl⟩

theorem Stmt.head_eq {stmt stmt' : Stmt} (same : stmt.form = stmt'.form) :
    stmt.head = stmt'.head := by
  obtain ⟨items, formed⟩ := stmt.form_eq_node
  obtain ⟨items', formed'⟩ := stmt'.form_eq_node
  rw [formed, formed'] at same
  exact (PrefixForm.node.inj same).1

mutual

/-- The form of a statement tells the statement, wherever it stands. -/
theorem Stmt.form_inj : {stmt stmt' : Stmt} → stmt.Legible → stmt'.Legible →
    stmt.form = stmt'.form → anywhere.Stmts stmt stmt'
  | expression _, stmt', legible, legible', same => by
      have heads := head_eq same
      cases stmt' with
      | expression =>
          obtain ⟨-, items⟩ := PrefixForm.node.inj same
          exact .expression (Expr.form_inj legible legible' (List.singleton_inj.mp items))
      | _ => simp [head] at heads
  | print _, stmt', legible, legible', same => by
      have heads := head_eq same
      cases stmt' with
      | print =>
          obtain ⟨-, items⟩ := PrefixForm.node.inj same
          exact .print (Expr.form_inj legible legible' (List.singleton_inj.mp items))
      | _ => simp [head] at heads
  | var _ none, stmt', legible, legible', same => by
      have heads := head_eq same
      cases stmt' with
      | var _ initializer' =>
          cases initializer' with
          | none =>
              simp only [form, PrefixForm.node.injEq, List.cons.injEq, PrefixForm.word.injEq,
                true_and, and_true] at same
              exact .bare (legible.alike legible' same)
          | some => simp [form] at same
      | _ => simp [head] at heads
  | var _ (some _), stmt', legible, legible', same => by
      have heads := head_eq same
      cases stmt' with
      | var _ initializer' =>
          cases initializer' with
          | none => simp [form] at same
          | some =>
              simp only [form, PrefixForm.node.injEq, List.cons.injEq, PrefixForm.word.injEq,
                true_and, and_true] at same
              exact .initialized (legible.1.alike legible'.1 same.1)
                (Expr.form_inj legible.2 legible'.2 same.2)
      | _ => simp [head] at heads
  | block _, stmt', legible, legible', same => by
      have heads := head_eq same
      cases stmt' with
      | block =>
          obtain ⟨-, items⟩ := PrefixForm.node.inj same
          exact .block (forms_inj legible legible' items)
      | _ => simp [head] at heads
  | branch _ _ none, stmt', legible, legible', same => by
      have heads := head_eq same
      cases stmt' with
      | branch _ _ onFalse' =>
          cases onFalse' with
          | none =>
              simp only [form, PrefixForm.node.injEq, List.cons.injEq, true_and, and_true] at same
              exact .branch (Expr.form_inj legible.1 legible'.1 same.1)
                (form_inj legible.2 legible'.2 same.2)
          | some => simp [form] at same
      | _ => simp [head] at heads
  | branch _ _ (some _), stmt', legible, legible', same => by
      have heads := head_eq same
      cases stmt' with
      | branch _ _ onFalse' =>
          cases onFalse' with
          | none => simp [form] at same
          | some =>
              simp only [form, PrefixForm.node.injEq, List.cons.injEq, true_and, and_true] at same
              exact .either (Expr.form_inj legible.1 legible'.1 same.1)
                (form_inj legible.2.1 legible'.2.1 same.2.1)
                (form_inj legible.2.2 legible'.2.2 same.2.2)
      | _ => simp [head] at heads
  | loop _ _, stmt', legible, legible', same => by
      have heads := head_eq same
      cases stmt' with
      | loop =>
          simp only [form, PrefixForm.node.injEq, List.cons.injEq, true_and, and_true] at same
          exact .loop (Expr.form_inj legible.1 legible'.1 same.1)
            (form_inj legible.2 legible'.2 same.2)
      | _ => simp [head] at heads

theorem Stmt.forms_inj : {body body' : List Stmt} → AllLegible body → AllLegible body' →
    forms body = forms body' → anywhere.Tasks (.all body) (.all body')
  | [], [], _, _, _ => .nothing
  | _ :: _, _ :: _, legible, legible', same => by
      obtain ⟨first, others⟩ := List.cons.inj same
      exact .next (form_inj legible.1 legible'.1 first) (forms_inj legible.2 legible'.2 others)

end

theorem Stmt.mem_allVarNames {statements : List Stmt} {name : Token} :
    name ∈ Stmt.allVarNames statements ↔ ∃ statement ∈ statements, name ∈ statement.varNames := by
  induction statements with
  | nil => simp [Stmt.allVarNames]
  | cons statement rest ih => simp [Stmt.allVarNames, ih]

/-! ## Parsed trees -/

namespace Grammar

theorem Origin.plain {tokens : List Token} {node : Expr} (origin : Origin tokens node)
    (scanned : ∀ token ∈ tokens, Matches token.lexeme.toList (.token token.kind token.literal))
    (finite : ∀ value span, node = .literal (.number value) span → Number.IsFinite value) :
    node.Plain := by
  have kept : (node.gathered id fun _ => []).Sublist (tokens.map id) :=
    origin.gathered_sublist fun _ => List.nil_sublist _
  rw [List.map_id] at kept
  have proper := origin.proper node node.self_mem_nodes
  have operated := origin.wellOperated
  cases node with
  | literal value span =>
      cases value with
      | number value => exact finite value span rfl
      | _ => trivial
  | grouping => trivial
  | unary operator right =>
      exact ⟨proper, scanned operator (kept.subset (by simp [Expr.gathered]))⟩
  | binary left operator right =>
      exact ⟨proper, scanned operator (kept.subset (by simp [Expr.gathered]))⟩
  | logical left operator right =>
      exact ⟨operated.1, scanned operator (kept.subset (by simp [Expr.gathered]))⟩
  | reference name | assign name value =>
      exact ⟨List.mem_singleton.mpr proper, scanned name (kept.subset (by simp [Expr.gathered]))⟩

/-- These are names among the tokens. -/
def NamesIn (tokens names : List Token) : Prop :=
  ∀ name ∈ names, name ∈ tokens ∧ name.kind = .identifier

theorem NamesIn.widen {tokens others names : List Token} (known : NamesIn tokens names)
    (part : tokens ⊆ others) : NamesIn others names :=
  fun name member => ⟨part (known name member).1, (known name member).2⟩

theorem ReadsVar.varNames {tokens : List Token} {stmt : Stmt} {noted : List SyntaxError}
    (reads : ReadsVar tokens stmt noted) : NamesIn tokens stmt.varNames := by
  cases reads with
  | bare _ nameKind => exact List.forall_mem_singleton.mpr ⟨by simp, nameKind⟩
  | initialized _ nameKind => exact List.forall_mem_singleton.mpr ⟨by simp, nameKind⟩

theorem ReadsExprStmt.varNames {tokens : List Token} {stmt : Stmt} {noted : List SyntaxError}
    (reads : ReadsExprStmt tokens stmt noted) : stmt.varNames = [] := by
  cases reads with
  | intro => rfl

theorem forLoop_varNames {first tokens : List Token} {initializer : Option Stmt}
    {condition : Expr} {increment : Option Expr} {round : Stmt} {noted : List SyntaxError}
    (initialized : ReadsInitializer first initializer noted) (firstInside : first ⊆ tokens)
    (repeated : NamesIn tokens round.varNames) :
    NamesIn tokens
      (withInitializer (.loop condition (withIncrement round increment)) initializer).varNames := by
  have rounds : NamesIn tokens (withIncrement round increment).varNames := by
    cases increment with
    | none => exact repeated
    | some => simpa [withIncrement, Stmt.varNames, Stmt.allVarNames] using repeated
  cases initialized with
  | absent => exact rounds
  | var declares =>
      exact List.forall_mem_append.mpr ⟨declares.varNames.widen firstInside,
        List.forall_mem_append.mpr ⟨rounds, List.forall_mem_nil _⟩⟩
  | expression evaluates =>
      simpa [withInitializer, Stmt.varNames, Stmt.allVarNames, evaluates.varNames] using rounds

theorem ReadsStmt.varNames {role : Role} {tokens : List Token} {stmt : Stmt}
    {noted : List SyntaxError} (reads : ReadsStmt role tokens stmt noted) :
    NamesIn tokens stmt.varNames := by
  induction reads with
  | var declares => exact declares.varNames
  | statement _ ih => exact ih
  | expression evaluates =>
      rw [evaluates.varNames]
      exact List.forall_mem_nil _
  | print => exact List.forall_mem_nil _
  | block _ _ _ ih =>
      intro name member
      obtain ⟨statement, inside, member⟩ := Stmt.mem_allVarNames.mp member
      obtain ⟨part, among, rfl⟩ := List.mem_map.mp inside
      refine (ih part among).widen (fun token inner => ?_) name member
      have piece : token ∈ Part.tokensOf _ := List.mem_flatMap.mpr ⟨part, among, inner⟩
      simp [piece]
  | ifOnly _ _ _ _ _ ih | whileLoop _ _ _ _ _ ih =>
      exact ih.widen fun token member => by simp [member]
  | ifElse _ _ _ _ _ _ _ takenIh refusedIh =>
      exact List.forall_mem_append.mpr ⟨takenIh.widen fun token member => by simp [member],
        refusedIh.widen fun token member => by simp [member]⟩
  | forLoop _ _ initialized _ _ _ _ _ ih =>
      exact forLoop_varNames initialized (fun token member => by simp [member])
        (ih.widen fun token member => by simp [member])

end Grammar

mutual

theorem Stmt.legible_of : {stmt : Stmt} →
    (∀ occurrence ∈ stmt.occurrences, occurrence.expr.Legible) →
    (∀ name ∈ stmt.varNames, name.ReadAs [.identifier]) → stmt.Legible
  | expression _, exprs, _ | print _, exprs, _ => exprs _ (List.mem_singleton_self _)
  | var _ none, _, names => names _ (List.mem_singleton_self _)
  | var _ (some _), exprs, names =>
      ⟨names _ (List.mem_singleton_self _), exprs _ (List.mem_singleton_self _)⟩
  | block _, exprs, names => allLegible_of exprs names
  | branch _ _ none, exprs, names | loop _ _, exprs, names =>
      ⟨exprs _ List.mem_cons_self,
        legible_of (fun _ member => exprs _ (List.mem_cons_of_mem _ member)) names⟩
  | branch _ _ (some _), exprs, names => by
      obtain ⟨condition, rest⟩ := List.forall_mem_cons.mp exprs
      obtain ⟨taken, refused⟩ := List.forall_mem_append.mp rest
      obtain ⟨takenNames, refusedNames⟩ := List.forall_mem_append.mp names
      exact ⟨condition, legible_of taken takenNames, legible_of refused refusedNames⟩

theorem Stmt.allLegible_of : {body : List Stmt} →
    (∀ occurrence ∈ Stmt.allOccurrences body, occurrence.expr.Legible) →
    (∀ name ∈ Stmt.allVarNames body, name.ReadAs [.identifier]) → AllLegible body
  | [], _, _ => trivial
  | _ :: _, exprs, names => by
      obtain ⟨first, others⟩ := List.forall_mem_append.mp exprs
      obtain ⟨firstNames, otherNames⟩ := List.forall_mem_append.mp names
      exact ⟨legible_of first firstNames, allLegible_of others otherNames⟩

end

/-- The numbers in a statement are finite. -/
def Stmt.NumbersFinite (stmt : Stmt) : Prop :=
  ∀ value span, .literal (.number value) span ∈ Stmt.allNodes [stmt] → Number.IsFinite value

/-- A statement that was parsed, if its numbers are finite, is shown in words that can be read. -/
theorem Parsed.legible_ofSource {source : String} {stmt : Stmt}
    (parsed : stmt ∈ (Parsed.ofSource source).1.statements) (finite : stmt.NumbersFinite) :
    stmt.Legible := by
  have scanned : ∀ token ∈ (Scan.ofSource source).tokens.takeWhile fun token => !token.isEnd,
      Matches token.lexeme.toList (.token token.kind token.literal) := by
    intro token member
    refine (Scan.matches_lexeme ((List.takeWhile_prefix _).subset member)).resolve_left ?_
    simpa [Token.isEnd] using List.mem_takeWhile_imp member
  refine Stmt.legible_of (fun occurrence member node inside => ?_) fun name member => ?_
  · have among : occurrence ∈ Stmt.allOccurrences (Parsed.ofSource source).1.statements :=
      Stmt.mem_allOccurrences.mpr ⟨stmt, parsed, member⟩
    have origin := (Parsed.origins_inside _ occurrence among).nodes node inside
    refine origin.plain scanned fun value span same => finite value span ?_
    refine List.mem_flatMap.mpr ⟨occurrence, ?_, same ▸ inside⟩
    exact Stmt.mem_allOccurrences.mpr ⟨stmt, List.mem_singleton_self _, member⟩
  · obtain ⟨read, noted, inside, reads⟩ := Parsed.trees_ofTokens _ parsed
    obtain ⟨known, kind⟩ := reads.varNames name member
    exact ⟨List.mem_singleton.mpr kind, scanned name (inside.subset known)⟩

/-- Two statements, parsed from whatever sources, that are shown alike are the same but for lines
and spans, if all of their numbers are finite. -/
theorem Parsed.display_inj {source source' : String} {stmt stmt' : Stmt}
    (parsed : stmt ∈ (Parsed.ofSource source).1.statements)
    (parsed' : stmt' ∈ (Parsed.ofSource source').1.statements) (finite : stmt.NumbersFinite)
    (finite' : stmt'.NumbersFinite) (same : stmt.display = stmt'.display) :
    anywhere.Stmts stmt stmt' := by
  have legible := Parsed.legible_ofSource parsed finite
  have legible' := Parsed.legible_ofSource parsed' finite'
  refine Stmt.form_inj legible legible' ?_
  refine PrefixForm.text_inj (Stmt.legible_form legible) (Stmt.legible_form legible') ?_
  rw [Stmt.text_form, Stmt.text_form, same]

/-- A `for` that only repeats is shown like a `while`, and `2.0` like `2`; the trees are alike. -/
theorem Parsed.display_inj_loops :
    ∃ stmt ∈ (Parsed.ofSource "for (;;) print 2.0 - a;").1.statements,
      ∃ stmt' ∈ (Parsed.ofSource "while (true)\n  print 2 - a;").1.statements,
        stmt.NumbersFinite ∧ stmt'.NumbersFinite ∧
        stmt.display = "(while true (print (- 2 a)))" ∧ stmt.display = stmt'.display ∧
        anywhere.Stmts stmt stmt' := by
  obtain ⟨stmt, known, parsed⟩ : ∃ stmt : Stmt, stmt =
      .loop (.literal (.boolean true) ⟨0, 3⟩)
        (.print (.binary (.literal (.number (Float.ofScientific 20 true 1)) ⟨15, 18⟩)
          ⟨.minus, "-", none, 1, ⟨19, 20⟩⟩ (.reference ⟨.identifier, "a", none, 1, ⟨21, 22⟩⟩))) ∧
      stmt ∈ (Parsed.ofSource "for (;;) print 2.0 - a;").1.statements :=
    ⟨_, rfl, List.mem_cons_self⟩
  obtain ⟨stmt', known', parsed'⟩ : ∃ stmt : Stmt, stmt =
      .loop (.literal (.boolean true) ⟨7, 11⟩)
        (.print (.binary (.literal (.number (Float.ofScientific 2 false 0)) ⟨21, 22⟩)
          ⟨.minus, "-", none, 2, ⟨23, 24⟩⟩ (.reference ⟨.identifier, "a", none, 2, ⟨25, 26⟩⟩))) ∧
      stmt ∈ (Parsed.ofSource "while (true)\n  print 2 - a;").1.statements :=
    ⟨_, rfl, List.mem_cons_self⟩
  have two : Number.IsFinite (Float.ofScientific 2 false 0) :=
    ⟨4503599627370496, -51, by decide +kernel⟩
  have same : Float.ofScientific 20 true 1 = Float.ofScientific 2 false 0 := by decide +kernel
  rw [same] at known
  have finite : stmt.NumbersFinite := by
    intro value span member
    have number : value = Float.ofScientific 2 false 0 ∧ span = ⟨15, 18⟩ := by
      simpa [known, Stmt.allNodes, Stmt.allOccurrences, Stmt.occurrences, Expr.nodes] using member
    exact number.1 ▸ two
  have finite' : stmt'.NumbersFinite := by
    intro value span member
    have number : value = Float.ofScientific 2 false 0 ∧ span = ⟨21, 22⟩ := by
      simpa [known', Stmt.allNodes, Stmt.allOccurrences, Stmt.occurrences, Expr.nodes] using member
    exact number.1 ▸ two
  have shown : stmt.display = "(while true (print (- 2 a)))" := by
    rw [known]
    decide +kernel
  have shown' : stmt'.display = "(while true (print (- 2 a)))" := by
    rw [known']
    decide +kernel
  have alike := Parsed.display_inj parsed parsed' finite finite' (shown.trans shown'.symm)
  exact ⟨stmt, parsed, stmt', parsed', finite, finite', shown, shown.trans shown'.symm, alike⟩

end TreeWalk
