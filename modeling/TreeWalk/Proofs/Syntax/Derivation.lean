import TreeWalk.Proofs.Syntax.Phrase

/-!
# Derivations and trees

The grammar derives a word exactly if its tokens are read as a program without errors.  A tree
is a derivation with more detail, so one direction forgets.  The other direction builds the tree
from any derivation, and there the ambiguity of `else` shows: a derivation may attach it to an
`if` that is not the nearest.  `ReadsStmt.attach` moves such an `else` inward.
-/

set_option autoImplicit false

namespace TreeWalk.Grammar

/-! ## From trees to derivations -/

theorem chained_of_chain? {symbol : Symbol} {chain : Chain} (level : chain? symbol = some chain) :
    ∃ first others, chain.operators = first :: others ∧
      language symbol = Form.chained chain.operand first others := by
  cases symbol <;> simp only [chain?, Option.some.injEq, reduceCtorEq] at level <;>
    subst level <;> exact ⟨_, _, rfl, rfl⟩

section Derivations

variable {rules : Symbol → Form}

theorem Derives.token {token : Token} {kind : Kind} (same : token.kind = kind) :
    Derives rules (.terminal kind) [token.kind] := by
  rw [same]
  exact .terminal kind

theorem Derives.oneOf_terminals {kind first : Kind} {others : List Kind}
    (member : kind ∈ first :: others) :
    Derives rules (Form.oneOf (.terminal first) (others.map .terminal)) [kind] := by
  induction others generalizing first with
  | nil =>
      rw [List.mem_singleton.mp member]
      exact .terminal first
  | cons second rest ih =>
      rcases List.mem_cons.mp member with rfl | member
      · exact .first (.terminal _)
      · exact .second (ih member)

theorem Derives.chained_single {operand : Symbol} {first : Kind} {others : List Kind}
    {word : List Kind} (inner : Derives rules (.phrase operand) word) :
    Derives rules (Form.chained operand first others) word := by
  rw [← List.append_nil word]
  exact .both inner .done

theorem Derives.chained_longer {operand : Symbol} {first kind : Kind} {others : List Kind}
    {front back : List Kind} (init : Derives rules (Form.chained operand first others) front)
    (member : kind ∈ first :: others) (last : Derives rules (.phrase operand) back) :
    Derives rules (Form.chained operand first others) (front ++ kind :: back) := by
  cases init with
  | both head tail =>
      rw [List.append_assoc]
      exact .both head (tail.snoc (.both (.oneOf_terminals member) last))

end Derivations

theorem Reads.derives {symbol : Symbol} {tokens : List Token} {expr : Expr}
    {noted : List SyntaxError} (reads : Reads symbol tokens expr noted) (clean : noted = []) :
    Derives language (.phrase symbol) (tokens.map Token.kind) := by
  induction reads with
  | expression _ ih => exact .phrase (ih clean)
  | value _ ih => exact .phrase (.second (ih clean))
  | assign nameKind equalsKind _ ih =>
      exact .phrase (.first (.both (.token nameKind) (.both (.token equalsKind) (ih clean))))
  | misassign => cases clean
  | single level _ ih =>
      obtain ⟨first, others, _, rule⟩ := chained_of_chain? level
      exact .phrase (rule ▸ .chained_single (ih clean))
  | longer level _ operatorKind _ init operand =>
      obtain ⟨first, others, kinds, rule⟩ := chained_of_chain? level
      obtain ⟨rfl, rfl⟩ := List.append_eq_nil_iff.mp clean
      rw [kinds] at operatorKind
      have front := init rfl
      cases front with
      | phrase body =>
          rw [rule] at body
          rw [List.map_append, List.map_cons]
          exact .phrase (rule ▸ body.chained_longer operatorKind (operand rfl))
  | unary operatorKind _ ih =>
      exact .phrase (.first (.both (.oneOf_terminals operatorKind) (ih clean)))
  | primary _ ih => exact .phrase (.second (ih clean))
  | leaf leaf =>
      refine .phrase ?_
      cases leaf with
      | carried kind | missing kind =>
          rcases kind with kind | kind
          · exact .first (.token kind)
          · exact .second (.first (.token kind))
      | keyTrue kind => exact .second (.second (.first (.token kind)))
      | keyFalse kind => exact .second (.second (.second (.first (.token kind))))
      | keyNil kind => exact .second (.second (.second (.second (.first (.token kind)))))
  | name kind =>
      exact .phrase (.second (.second (.second (.second (.second (.first (.token kind)))))))
  | group leftKind _ rightKind ih =>
      rw [List.map_cons, List.map_append]
      exact .phrase (.second (.second (.second (.second (.second (.second
        (.both (.token leftKind) (.both (ih clean) (.token rightKind)))))))))

theorem ReadsVar.derives {tokens : List Token} {stmt : Stmt} (reads : ReadsVar tokens stmt []) :
    Derives language (.phrase .varDecl) (tokens.map Token.kind) := by
  cases reads with
  | bare keywordKind nameKind semicolonKind =>
      exact .phrase (.both (.token keywordKind) (.both (.token nameKind)
        (.both .absent (.token semicolonKind))))
  | initialized keywordKind nameKind equalsKind initializer semicolonKind =>
      simp only [List.map_cons, List.map_append]
      exact .phrase (.both (.token keywordKind) (.both (.token nameKind)
        (.both (.present (.both (.token equalsKind) (initializer.derives rfl)))
          (.token semicolonKind))))

theorem ReadsExprStmt.derives {tokens : List Token} {stmt : Stmt}
    (reads : ReadsExprStmt tokens stmt []) :
    Derives language (.phrase .exprStmt) (tokens.map Token.kind) := by
  cases reads with
  | intro inner semicolonKind =>
      rw [List.map_append]
      exact .phrase (.both (inner.derives rfl) (.token semicolonKind))

theorem ReadsOptional.derives {tokens : List Token} {expr : Option Expr}
    (reads : ReadsOptional tokens expr []) :
    Derives language (.optional (.phrase .expression)) (tokens.map Token.kind) := by
  cases reads with
  | absent => exact .absent
  | present inner => exact .present (inner.derives rfl)

theorem ReadsInitializer.derives {tokens : List Token} {stmt : Option Stmt}
    (reads : ReadsInitializer tokens stmt []) :
    Derives language
      (Form.oneOf (.phrase .varDecl) [.phrase .exprStmt, .terminal .semicolon])
      (tokens.map Token.kind) := by
  cases reads with
  | absent semicolonKind => exact .second (.second (.token semicolonKind))
  | var declares => exact .first declares.derives
  | expression evaluates => exact .second (.first evaluates.derives)

/-- The symbol that a role stands for. -/
def Role.symbol : Role → Symbol
  | .declaration => .declaration
  | .statement _ => .statement

theorem Part.notedIn_eq_nil {parts : List Part} :
    Part.notedIn parts = [] ↔ ∀ part ∈ parts, part.noted = [] := by
  simp [Part.notedIn]

theorem Part.kinds_tokensOf (parts : List Part) :
    (Part.tokensOf parts).map Token.kind =
      (parts.map fun part => part.tokens.map Token.kind).flatten := by
  simp [Part.tokensOf, List.flatMap_def, List.map_flatten, Function.comp_def]

theorem ReadsStmt.derives {role : Role} {tokens : List Token} {stmt : Stmt}
    {noted : List SyntaxError} (reads : ReadsStmt role tokens stmt noted) (clean : noted = []) :
    Derives language (.phrase role.symbol) (tokens.map Token.kind) := by
  induction reads with
  | var declares => exact .phrase (.first (clean ▸ declares).derives)
  | statement _ ih => exact .phrase (.second (ih clean))
  | expression evaluates => exact .phrase (.first (clean ▸ evaluates).derives)
  | print keywordKind inner semicolonKind =>
      rw [List.map_cons, List.map_append]
      exact .phrase (.second (.first (.phrase (.both (.token keywordKind)
        (.both (inner.derives clean) (.token semicolonKind))))))
  | @block left right parts leftKind each rightKind ih =>
      have noneNoted := Part.notedIn_eq_nil.mp clean
      have inside : Derives language (.repeated (.phrase .declaration))
          ((Part.tokensOf parts).map Token.kind) := by
        rw [Part.kinds_tokensOf]
        refine Derives.flatten _ ?_
        intro word member
        obtain ⟨part, partMember, rfl⟩ := List.mem_map.mp member
        exact ih part partMember (noneNoted part partMember)
      rw [List.map_cons, List.map_append]
      exact .phrase (.second (.second (.second (.second (.second (.phrase
        (.both (.token leftKind) (.both inside (.token rightKind)))))))))
  | ifOnly keywordKind leftKind tested rightKind _ taken =>
      obtain ⟨rfl, rfl⟩ := List.append_eq_nil_iff.mp clean
      simp only [List.map_cons, List.map_append]
      refine .phrase (.second (.second (.first (.phrase (.both (.token keywordKind)
        (.both (.token leftKind) (.both (tested.derives rfl) (.both (.token rightKind) ?_))))))))
      rw [← List.append_nil (List.map Token.kind _)]
      exact .both (taken rfl) .absent
  | ifElse keywordKind leftKind tested rightKind _ otherwiseKind _ taken refused =>
      simp only [List.append_eq_nil_iff] at clean
      obtain ⟨rfl, rfl, rfl⟩ := clean
      simp only [List.map_cons, List.map_append]
      exact .phrase (.second (.second (.first (.phrase (.both (.token keywordKind)
        (.both (.token leftKind) (.both (tested.derives rfl) (.both (.token rightKind)
          (.both (taken rfl) (.present (.both (.token otherwiseKind) (refused rfl))))))))))))
  | whileLoop keywordKind leftKind tested rightKind _ repeated =>
      obtain ⟨rfl, rfl⟩ := List.append_eq_nil_iff.mp clean
      simp only [List.map_cons, List.map_append]
      exact .phrase (.second (.second (.second (.first (.phrase (.both (.token keywordKind)
        (.both (.token leftKind) (.both (tested.derives rfl) (.both (.token rightKind)
          (repeated rfl))))))))))
  | forLoop keywordKind leftKind initialized tested middleKind stepped rightKind _ repeated =>
      simp only [List.append_eq_nil_iff] at clean
      obtain ⟨rfl, rfl, rfl, rfl⟩ := clean
      simp only [List.map_cons, List.map_append]
      exact .phrase (.second (.second (.second (.second (.first (.phrase
        (.both (.token keywordKind) (.both (.token leftKind) (.both initialized.derives
          (.both tested.derives (.both (.token middleKind) (.both stepped.derives
            (.both (.token rightKind) (repeated rfl))))))))))))))

theorem ReadsProgram.derives {tokens : List Token} {ending : Token} {program : List Stmt}
    (reads : ReadsProgram tokens program []) (last : ending.kind = .eof) :
    Derives language (.phrase .program) ((tokens ++ [ending]).map Token.kind) := by
  obtain ⟨parts, each, rfl, -, clean⟩ := reads
  have noneNoted := Part.notedIn_eq_nil.mp clean.symm
  rw [List.map_append, Part.kinds_tokensOf]
  refine .phrase (.both (Derives.flatten _ ?_) (.token last))
  intro word member
  obtain ⟨part, partMember, rfl⟩ := List.mem_map.mp member
  exact (each part partMember).derives (noneNoted part partMember)

/-! ## From derivations to trees -/

/-- The tokens that a form describes when those of each symbol are given. -/
def Models (described : Symbol → List Token → Prop) : Form → List Token → Prop
  | .terminal kind, tokens => ∃ token, tokens = [token] ∧ token.kind = kind
  | .phrase symbol, tokens => described symbol tokens
  | .both first second, tokens =>
      ∃ front back, tokens = front ++ back ∧ Models described first front ∧
        Models described second back
  | .either first second, tokens => Models described first tokens ∨ Models described second tokens
  | .optional inner, tokens => tokens = [] ∨ Models described inner tokens
  | .repeated inner, tokens =>
      ∃ parts : List (List Token), tokens = parts.flatten ∧
        ∀ part ∈ parts, Models described inner part

theorem Derives.models {rules : Symbol → Form} {described : Symbol → List Token → Prop}
    (closed : ∀ symbol tokens, Models described (rules symbol) tokens → described symbol tokens)
    {form : Form} {word : List Kind} (derivation : Derives rules form word)
    {tokens : List Token} (kinds : tokens.map Token.kind = word) :
    Models described form tokens := by
  induction derivation generalizing tokens with
  | terminal kind =>
      obtain ⟨token, rest, rfl, same, empty⟩ := List.map_eq_cons_iff.mp kinds
      rw [List.map_eq_nil_iff.mp empty]
      exact ⟨token, rfl, same⟩
  | phrase _ ih => exact closed _ _ (ih kinds)
  | both _ _ left right =>
      obtain ⟨front, back, rfl, frontKinds, backKinds⟩ := List.map_eq_append_iff.mp kinds
      exact ⟨front, back, rfl, left frontKinds, right backKinds⟩
  | first _ ih => exact Or.inl (ih kinds)
  | second _ ih => exact Or.inr (ih kinds)
  | absent => exact Or.inl (List.map_eq_nil_iff.mp kinds)
  | present _ ih => exact Or.inr (ih kinds)
  | done => exact ⟨[], List.map_eq_nil_iff.mp kinds, by simp⟩
  | more _ _ head tail =>
      obtain ⟨front, back, rfl, frontKinds, backKinds⟩ := List.map_eq_append_iff.mp kinds
      obtain ⟨parts, rfl, each⟩ := tail backKinds
      refine ⟨front :: parts, rfl, ?_⟩
      intro part member
      rcases List.mem_cons.mp member with rfl | member
      · exact head frontKinds
      · exact each part member

/-- An `else` behind an open statement can be read as part of that statement. -/
theorem ReadsStmt.attach {role : Role} {body alternative : List Token} {stmt onFalse : Stmt}
    {noted last : List SyntaxError} {otherwise : Token} {isOpen : Bool}
    (reads : ReadsStmt role body stmt noted) (open_ : role = .statement true)
    (otherwiseKind : otherwise.kind = .keyElse)
    (refused : ReadsStmt (.statement isOpen) alternative onFalse last) :
    ∃ isOpen' stmt',
      ReadsStmt (.statement isOpen') (body ++ otherwise :: alternative) stmt' (last ++ noted) := by
  induction reads with
  | var | statement => cases open_
  | expression | print | block => cases open_
  | @ifOnly _ _ _ inner _ _ _ _ _ _ keywordKind leftKind tested rightKind taken ih =>
      simp only [List.cons_append, List.append_assoc]
      cases inner with
      | false =>
          exact ⟨_, _, .ifElse keywordKind leftKind tested rightKind taken otherwiseKind refused⟩
      | true =>
          obtain ⟨_, _, attached⟩ := ih rfl
          have whole := ReadsStmt.ifOnly keywordKind leftKind tested rightKind attached
          rw [List.append_assoc] at whole
          exact ⟨_, _, whole⟩
  | ifElse keywordKind leftKind tested rightKind taken otherwiseKind' _ _ ih =>
      obtain ⟨_, _, attached⟩ := ih open_
      have whole :=
        ReadsStmt.ifElse keywordKind leftKind tested rightKind taken otherwiseKind' attached
      simp only [List.cons_append, List.append_assoc] at whole ⊢
      exact ⟨_, _, whole⟩
  | whileLoop keywordKind leftKind tested rightKind _ ih =>
      obtain ⟨_, _, attached⟩ := ih open_
      have whole := ReadsStmt.whileLoop keywordKind leftKind tested rightKind attached
      simp only [List.cons_append, List.append_assoc] at whole ⊢
      exact ⟨_, _, whole⟩
  | forLoop keywordKind leftKind initialized tested middleKind stepped rightKind _ ih =>
      obtain ⟨_, _, attached⟩ := ih open_
      have whole :=
        ReadsStmt.forLoop keywordKind leftKind initialized tested middleKind stepped rightKind
          attached
      simp only [List.cons_append, List.append_assoc] at whole ⊢
      exact ⟨_, _, whole⟩

theorem Leaf.of_carrier {token : Token} (kind : token.kind = .number ∨ token.kind = .string) :
    ∃ value, Leaf token value := by
  cases carries : token.literal with
  | none => exact ⟨_, .missing kind carries⟩
  | some literal => exact ⟨_, .carried kind carries⟩

/-- Errors that may be noted in phrases may also be noted one behind the other. -/
structure Tolerates (allowed : List SyntaxError → Prop) : Prop where
  nil : allowed []
  append {early late : List SyntaxError} : allowed early → allowed late → allowed (late ++ early)

theorem tolerates_none : Tolerates (· = []) := by
  refine ⟨rfl, ?_⟩
  rintro _ _ rfl rfl
  rfl

section Readable

variable {allowed : List SyntaxError → Prop}

/-- A statement, whether or not it is open. -/
def ReadsAny (allowed : List SyntaxError → Prop) (tokens : List Token) : Prop :=
  ∃ isOpen stmt noted, ReadsStmt (.statement isOpen) tokens stmt noted ∧ allowed noted

/-- Whether tokens have a tree as a phrase of a symbol, with no other errors than these. -/
def Readable (allowed : List SyntaxError → Prop) : Symbol → List Token → Prop
  | .program, tokens =>
      ∃ front ending program noted, tokens = front ++ [ending] ∧
        ReadsProgram front program noted ∧ allowed noted
  | .declaration, tokens => ∃ stmt noted, ReadsStmt .declaration tokens stmt noted ∧ allowed noted
  | .varDecl, tokens => ∃ stmt noted, ReadsVar tokens stmt noted ∧ allowed noted
  | .exprStmt, tokens => ∃ stmt noted, ReadsExprStmt tokens stmt noted ∧ allowed noted
  | .statement, tokens | .printStmt, tokens | .ifStmt, tokens | .whileStmt, tokens
  | .forStmt, tokens | .block, tokens => ReadsAny allowed tokens
  | symbol, tokens => ∃ expr noted, Reads symbol tokens expr noted ∧ allowed noted

variable (tolerates : Tolerates allowed)

include tolerates

theorem Reads.extend {symbol : Symbol} {chain : Chain} (level : chain? symbol = some chain)
    (parts : List (List Token))
    (each : ∀ part ∈ parts, ∃ operator back right noted, part = operator :: back ∧
      operator.kind ∈ chain.operators ∧ Reads chain.operand back right noted ∧ allowed noted)
    {front : List Token} {left : Expr} {early : List SyntaxError}
    (init : Reads symbol front left early) (clean : allowed early) :
    ∃ expr noted, Reads symbol (front ++ parts.flatten) expr noted ∧ allowed noted := by
  induction parts generalizing front left early with
  | nil => exact ⟨left, early, by simpa using init, clean⟩
  | cons part rest ih =>
      obtain ⟨operator, back, right, late, rfl, operatorKind, operand, clean'⟩ :=
        each part (List.mem_cons_self ..)
      obtain ⟨expr, noted, reads, all⟩ :=
        ih (fun other member => each other (List.mem_cons_of_mem _ member))
          (.longer level init operatorKind operand) (tolerates.append clean clean')
      exact ⟨expr, noted, by simpa using reads, all⟩

omit tolerates in
theorem models_oneOf_terminals {described : Symbol → List Token → Prop} {first : Kind}
    {others : List Kind} {tokens : List Token}
    (models : Models described (Form.oneOf (.terminal first) (others.map .terminal)) tokens) :
    ∃ token, tokens = [token] ∧ token.kind ∈ first :: others := by
  induction others generalizing first with
  | nil =>
      obtain ⟨token, rfl, kind⟩ := models
      exact ⟨token, rfl, List.mem_singleton.mpr kind⟩
  | cons second rest ih =>
      rcases models with ⟨token, rfl, kind⟩ | models
      · exact ⟨token, rfl, List.mem_cons.mpr (Or.inl kind)⟩
      · obtain ⟨token, rfl, member⟩ := ih models
        exact ⟨token, rfl, List.mem_cons_of_mem _ member⟩

theorem reads_of_models_chain {symbol : Symbol} {chain : Chain}
    (level : chain? symbol = some chain) {described : Symbol → List Token → Prop}
    (operands : ∀ tokens, described chain.operand tokens →
      ∃ expr noted, Reads chain.operand tokens expr noted ∧ allowed noted) {tokens : List Token}
    (models : Models described (language symbol) tokens) :
    ∃ expr noted, Reads symbol tokens expr noted ∧ allowed noted := by
  obtain ⟨first, others, kinds, rule⟩ := chained_of_chain? level
  rw [rule] at models
  obtain ⟨front, back, rfl, head, parts, rfl, each⟩ := models
  obtain ⟨left, early, head, clean⟩ := operands front head
  refine Reads.extend tolerates level parts ?_ (.single level head) clean
  intro part member
  obtain ⟨operator, back, rfl, operatorModels, operand⟩ := each part member
  obtain ⟨operator, rfl, operatorKind⟩ := models_oneOf_terminals operatorModels
  obtain ⟨right, late, operand, clean'⟩ := operands back operand
  exact ⟨operator, back, right, late, rfl, kinds ▸ operatorKind, operand, clean'⟩

theorem exists_parts (words : List (List Token))
    (each : ∀ word ∈ words, Readable allowed .declaration word) :
    ∃ parts : List Part,
      (∀ part ∈ parts, ReadsStmt .declaration part.tokens part.tree part.noted) ∧
        Part.tokensOf parts = words.flatten ∧ allowed (Part.notedIn parts) := by
  induction words with
  | nil => exact ⟨[], by simp, rfl, tolerates.nil⟩
  | cons word rest ih =>
      obtain ⟨stmt, noted, reads, clean⟩ := each word (List.mem_cons_self ..)
      obtain ⟨parts, readsRest, tokens, clean'⟩ :=
        ih fun other member => each other (List.mem_cons_of_mem _ member)
      refine ⟨⟨word, stmt, noted⟩ :: parts, ?_, ?_, ?_⟩
      · intro part member
        rcases List.mem_cons.mp member with rfl | member
        · exact reads
        · exact readsRest part member
      · rw [List.flatten_cons, ← tokens]
        rfl
      · have both := tolerates.append clean clean'
        unfold Part.notedIn at both ⊢
        simpa using both

theorem readsAny_if {keyword left right : Token} {test body rest : List Token}
    (keywordKind : keyword.kind = .keyIf) (leftKind : left.kind = .leftParen)
    (tested : Readable allowed .expression test) (rightKind : right.kind = .rightParen)
    (taken : ReadsAny allowed body)
    (refused : rest = [] ∨ ∃ otherwise alternative, rest = otherwise :: alternative ∧
      otherwise.kind = .keyElse ∧ ReadsAny allowed alternative) :
    ReadsAny allowed (keyword :: left :: (test ++ right :: (body ++ rest))) := by
  obtain ⟨condition, before, tested, clean⟩ := tested
  obtain ⟨isOpen, onTrue, after, taken, clean'⟩ := taken
  rcases refused with rfl |
    ⟨otherwise, alternative, rfl, otherwiseKind, _, onFalse, last, refused, clean''⟩
  · rw [List.append_nil]
    exact ⟨true, _, _, .ifOnly keywordKind leftKind tested rightKind taken,
      tolerates.append clean clean'⟩
  · cases isOpen with
    | false =>
        exact ⟨_, _, _, .ifElse keywordKind leftKind tested rightKind taken otherwiseKind refused,
          tolerates.append (tolerates.append clean clean') clean''⟩
    | true =>
        -- the `else` belongs to an `if` at the end of the body
        obtain ⟨_, _, attached⟩ := taken.attach rfl otherwiseKind refused
        exact ⟨true, _, _, .ifOnly keywordKind leftKind tested rightKind attached,
          tolerates.append clean (tolerates.append clean' clean'')⟩

theorem readsOptional_of_models {tokens : List Token}
    (models : tokens = [] ∨ Readable allowed .expression tokens) :
    ∃ expr noted, ReadsOptional tokens expr noted ∧ allowed noted := by
  rcases models with rfl | ⟨expr, noted, reads, clean⟩
  · exact ⟨none, [], .absent, tolerates.nil⟩
  · exact ⟨some expr, noted, .present reads, clean⟩

theorem readsInitializer_of_models {tokens : List Token}
    (models : Readable allowed .varDecl tokens ∨ Readable allowed .exprStmt tokens ∨
      ∃ token, tokens = [token] ∧ token.kind = .semicolon) :
    ∃ stmt noted, ReadsInitializer tokens stmt noted ∧ allowed noted := by
  rcases models with ⟨stmt, noted, reads, clean⟩ | ⟨stmt, noted, reads, clean⟩ |
    ⟨token, rfl, kind⟩
  · exact ⟨some stmt, noted, .var reads, clean⟩
  · exact ⟨some stmt, noted, .expression reads, clean⟩
  · exact ⟨none, [], .absent kind, tolerates.nil⟩

theorem readable_of_models (symbol : Symbol) (tokens : List Token)
    (models : Models (Readable allowed) (language symbol) tokens) :
    Readable allowed symbol tokens := by
  cases symbol with
  | program =>
      obtain ⟨front, back, rfl, ⟨words, rfl, each⟩, ending, rfl, _⟩ := models
      obtain ⟨parts, reads, tokens, clean⟩ := exists_parts tolerates words each
      exact ⟨_, ending, _, _, rfl, ⟨parts, reads, tokens.symm, rfl, rfl⟩, clean⟩
  | declaration =>
      rcases models with ⟨stmt, noted, reads, clean⟩ | ⟨isOpen, stmt, noted, reads, clean⟩
      · exact ⟨stmt, noted, .var reads, clean⟩
      · exact ⟨stmt, noted, .statement reads, clean⟩
  | varDecl =>
      obtain ⟨_, _, rfl, ⟨keyword, rfl, keywordKind⟩, _, _, rfl, ⟨name, rfl, nameKind⟩, front, _,
        rfl, initializer, semicolon, rfl, semicolonKind⟩ := models
      rcases initializer with rfl |
        ⟨_, _, rfl, ⟨equals, rfl, equalsKind⟩, expr, noted, initializer, clean⟩
      · exact ⟨_, _, .bare keywordKind nameKind semicolonKind, tolerates.nil⟩
      · exact ⟨_, _, .initialized keywordKind nameKind equalsKind initializer semicolonKind,
          clean⟩
  | statement =>
      rcases models with ⟨stmt, noted, reads, clean⟩ | models | models | models | models | models
      · exact ⟨false, stmt, noted, .expression reads, clean⟩
      all_goals exact models
  | exprStmt =>
      obtain ⟨front, _, rfl, ⟨expr, noted, inner, clean⟩, semicolon, rfl, semicolonKind⟩ := models
      exact ⟨_, noted, .intro inner semicolonKind, clean⟩
  | printStmt =>
      obtain ⟨_, _, rfl, ⟨keyword, rfl, keywordKind⟩, front, _, rfl, ⟨expr, noted, inner, clean⟩,
        semicolon, rfl, semicolonKind⟩ := models
      exact ⟨false, _, noted, .print keywordKind inner semicolonKind, clean⟩
  | block =>
      obtain ⟨_, _, rfl, ⟨left, rfl, leftKind⟩, _, _, rfl, ⟨words, rfl, each⟩, right, rfl,
        rightKind⟩ := models
      obtain ⟨parts, reads, tokens, clean⟩ := exists_parts tolerates words each
      have whole := ReadsStmt.block leftKind reads rightKind
      rw [tokens] at whole
      exact ⟨false, _, _, whole, clean⟩
  | ifStmt =>
      obtain ⟨_, _, rfl, ⟨keyword, rfl, keywordKind⟩, _, _, rfl, ⟨left, rfl, leftKind⟩, test, _,
        rfl, tested, _, _, rfl, ⟨right, rfl, rightKind⟩, body, rest, rfl, taken, refused⟩ :=
        models
      change ReadsAny allowed (keyword :: left :: (test ++ right :: (body ++ rest)))
      refine readsAny_if tolerates keywordKind leftKind tested rightKind taken ?_
      rcases refused with rfl | ⟨_, alternative, rfl, ⟨otherwise, rfl, otherwiseKind⟩, refused⟩
      · exact Or.inl rfl
      · exact Or.inr ⟨otherwise, alternative, rfl, otherwiseKind, refused⟩
  | whileStmt =>
      obtain ⟨_, _, rfl, ⟨keyword, rfl, keywordKind⟩, _, _, rfl, ⟨left, rfl, leftKind⟩, test, _,
        rfl, ⟨condition, before, tested, clean⟩, _, body, rfl, ⟨right, rfl, rightKind⟩, isOpen,
        round, after, repeated, clean'⟩ := models
      exact ⟨isOpen, _, _, .whileLoop keywordKind leftKind tested rightKind repeated,
        tolerates.append clean clean'⟩
  | forStmt =>
      obtain ⟨_, _, rfl, ⟨keyword, rfl, keywordKind⟩, _, _, rfl, ⟨left, rfl, leftKind⟩, first, _,
        rfl, initialized, test, _, rfl, tested, _, _, rfl, ⟨middle, rfl, middleKind⟩, last, _,
        rfl, stepped, _, body, rfl, ⟨right, rfl, rightKind⟩, isOpen, round, noted, repeated,
        clean⟩ := models
      obtain ⟨initializer, noted₁, initialized, clean₁⟩ :=
        readsInitializer_of_models tolerates initialized
      obtain ⟨condition, noted₂, tested, clean₂⟩ := readsOptional_of_models tolerates tested
      obtain ⟨increment, noted₃, stepped, clean₃⟩ := readsOptional_of_models tolerates stepped
      exact ⟨isOpen, _, _, .forLoop keywordKind leftKind initialized tested middleKind stepped
        rightKind repeated,
        tolerates.append (tolerates.append (tolerates.append clean₁ clean₂) clean₃) clean⟩
  | expression =>
      obtain ⟨expr, noted, reads, clean⟩ := models
      exact ⟨expr, noted, .expression reads, clean⟩
  | assignment =>
      rcases models with ⟨_, _, rfl, ⟨name, rfl, nameKind⟩, _, value, rfl,
        ⟨equals, rfl, equalsKind⟩, expr, noted, reads, clean⟩ | ⟨expr, noted, reads, clean⟩
      · exact ⟨_, noted, .assign nameKind equalsKind reads, clean⟩
      · exact ⟨expr, noted, .value reads, clean⟩
  | logicOr | logicAnd | equality | comparison | term | factor =>
      exact reads_of_models_chain tolerates rfl (fun _ readable => readable) models
  | unary =>
      rcases models with ⟨_, back, rfl, operator, expr, noted, reads, clean⟩ |
        ⟨expr, noted, reads, clean⟩
      · have prefixed : Models (Readable allowed)
            (Form.oneOf (.terminal .bang) ([Kind.minus].map .terminal)) _ := operator
        obtain ⟨operator, rfl, operatorKind⟩ := models_oneOf_terminals prefixed
        exact ⟨_, noted, .unary operatorKind reads, clean⟩
      · exact ⟨expr, noted, .primary reads, clean⟩
  | primary =>
      rcases models with ⟨token, rfl, kind⟩ | ⟨token, rfl, kind⟩ | ⟨token, rfl, kind⟩ |
        ⟨token, rfl, kind⟩ | ⟨token, rfl, kind⟩ | ⟨token, rfl, kind⟩ |
        ⟨_, _, rfl, ⟨left, rfl, leftKind⟩, inner, _, rfl, ⟨expr, noted, reads, clean⟩, right,
          rfl, rightKind⟩
      · obtain ⟨value, leaf⟩ := Leaf.of_carrier (Or.inl kind)
        exact ⟨_, _, .leaf leaf, tolerates.nil⟩
      · obtain ⟨value, leaf⟩ := Leaf.of_carrier (Or.inr kind)
        exact ⟨_, _, .leaf leaf, tolerates.nil⟩
      · exact ⟨_, _, .leaf (.keyTrue kind), tolerates.nil⟩
      · exact ⟨_, _, .leaf (.keyFalse kind), tolerates.nil⟩
      · exact ⟨_, _, .leaf (.keyNil kind), tolerates.nil⟩
      · exact ⟨_, _, .name kind, tolerates.nil⟩
      · exact ⟨_, noted, .group leftKind reads rightKind, clean⟩

end Readable

/-- The grammar derives a program exactly if it can be read without an error. -/
theorem derives_program_iff {tokens : List Token} {ending : Token} (last : ending.kind = .eof) :
    Derives language (.phrase .program) ((tokens ++ [ending]).map Token.kind) ↔
      ∃ program, ReadsProgram tokens program [] := by
  constructor
  · intro derivation
    have readable := derivation.models (readable_of_models tolerates_none) rfl
    obtain ⟨front, other, program, _, split, reads, rfl⟩ := readable
    obtain ⟨rfl, -⟩ := List.append_inj' split rfl
    exact ⟨program, reads⟩
  · rintro ⟨program, reads⟩
    exact reads.derives last

end TreeWalk.Grammar
