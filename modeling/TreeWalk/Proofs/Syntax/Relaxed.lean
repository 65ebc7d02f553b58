import TreeWalk.Proofs.Syntax.Recognition

/-!
# The grammar without the restriction on assignments

In front of the equals sign of an assignment the parser reads any operand and only then looks at
what it is.  So the tokens that it reads are words of a grammar with a laxer rule for assignments.
Its words have trees as well, in which mistaken assignments are noted.
-/

set_option autoImplicit false

namespace TreeWalk.Grammar

open Form

/-- The rules of the language, but that anything may be assigned to. -/
def relaxed : Symbol → Form
  | .assignment =>
      sequence (phrase .logicOr)
        [optional (sequence (terminal .equal) [phrase .assignment])]
  | symbol => language symbol

/-- The programs of the relaxed grammar; the end is left out. -/
def Sentence (word : List Kind) : Prop :=
  Derives relaxed (.phrase .program) (word ++ [.eof])

/-- Something can follow so that a word of the form comes about. -/
def Opens (form : Form) (word : List Kind) : Prop :=
  ∃ rest, Derives relaxed form (word ++ rest)

theorem relaxed_of_chain? {symbol : Symbol} {chain : Chain} (level : chain? symbol = some chain) :
    relaxed symbol = language symbol := by
  cases symbol with
  | assignment => cases level
  | _ => rfl

section Shapes

variable {first second third inner : Form} {word : List Kind}

theorem Derives.again (derives : Derives relaxed (.both inner (.repeated inner)) word) :
    Derives relaxed (.repeated inner) word := by
  cases derives with
  | both head tail => exact .more head tail

theorem Derives.regroup (derives : Derives relaxed (.both (.both first second) third) word) :
    Derives relaxed (.both first (.both second third)) word := by
  cases derives with
  | both left right =>
      cases left with
      | both head middle =>
          rw [List.append_assoc]
          exact .both head (.both middle right)

theorem Derives.include (derives : Derives relaxed (.both inner second) word) :
    Derives relaxed (.both (.optional inner) second) word := by
  cases derives with
  | both left right => exact .both (.present left) right

theorem Derives.omit (derives : Derives relaxed second word) :
    Derives relaxed (.both (.optional inner) second) word := .both .absent derives

end Shapes

/-! ## Every form has a word -/

theorem derives_operand {symbol : Symbol} {chain : Chain} (level : chain? symbol = some chain)
    {word : List Kind} (operand : Derives relaxed (.phrase chain.operand) word) :
    Derives relaxed (.phrase symbol) word := by
  obtain ⟨first, others, -, rule⟩ := chained_of_chain? level
  refine .phrase ?_
  rw [relaxed_of_chain? level, rule]
  exact .chained_single operand

theorem exists_phrase (symbol : Symbol) : ∃ word, Derives relaxed (.phrase symbol) word := by
  have primary : Derives relaxed (.phrase .primary) [.keyNil] :=
    .phrase (.second (.second (.second (.second (.first (.terminal .keyNil))))))
  have unary : Derives relaxed (.phrase .unary) [.keyNil] := .phrase (.second primary)
  have factor : Derives relaxed (.phrase .factor) [.keyNil] := derives_operand rfl unary
  have term : Derives relaxed (.phrase .term) [.keyNil] := derives_operand rfl factor
  have comparison : Derives relaxed (.phrase .comparison) [.keyNil] := derives_operand rfl term
  have equality : Derives relaxed (.phrase .equality) [.keyNil] := derives_operand rfl comparison
  have logicAnd : Derives relaxed (.phrase .logicAnd) [.keyNil] := derives_operand rfl equality
  have logicOr : Derives relaxed (.phrase .logicOr) [.keyNil] := derives_operand rfl logicAnd
  have assignment : Derives relaxed (.phrase .assignment) [.keyNil] :=
    .phrase (.both logicOr .absent)
  have expression : Derives relaxed (.phrase .expression) [.keyNil] := .phrase assignment
  have exprStmt : Derives relaxed (.phrase .exprStmt) [.keyNil, .semicolon] :=
    .phrase (.both expression (.terminal .semicolon))
  have statement : Derives relaxed (.phrase .statement) [.keyNil, .semicolon] :=
    .phrase (.first exprStmt)
  cases symbol with
  | program => exact ⟨_, .phrase (.both .done (.terminal .eof))⟩
  | declaration => exact ⟨_, .phrase (.second statement)⟩
  | varDecl =>
      exact ⟨_, .phrase (.both (.terminal .keyVar) (.both (.terminal .identifier)
        (.both .absent (.terminal .semicolon))))⟩
  | printStmt =>
      exact ⟨_, .phrase (.both (.terminal .keyPrint) (.both expression (.terminal .semicolon)))⟩
  | ifStmt =>
      exact ⟨_, .phrase (.both (.terminal .keyIf) (.both (.terminal .leftParen) (.both expression
        (.both (.terminal .rightParen) (.both statement .absent)))))⟩
  | whileStmt =>
      exact ⟨_, .phrase (.both (.terminal .keyWhile) (.both (.terminal .leftParen)
        (.both expression (.both (.terminal .rightParen) statement))))⟩
  | forStmt =>
      exact ⟨_, .phrase (.both (.terminal .keyFor) (.both (.terminal .leftParen)
        (.both (.second (.second (.terminal .semicolon))) (.both .absent
          (.both (.terminal .semicolon) (.both .absent
            (.both (.terminal .rightParen) statement)))))))⟩
  | block =>
      exact ⟨_, .phrase (.both (.terminal .leftBrace) (.both .done (.terminal .rightBrace)))⟩
  | statement => exact ⟨_, statement⟩
  | exprStmt => exact ⟨_, exprStmt⟩
  | expression => exact ⟨_, expression⟩
  | assignment => exact ⟨_, assignment⟩
  | logicOr => exact ⟨_, logicOr⟩
  | logicAnd => exact ⟨_, logicAnd⟩
  | equality => exact ⟨_, equality⟩
  | comparison => exact ⟨_, comparison⟩
  | term => exact ⟨_, term⟩
  | factor => exact ⟨_, factor⟩
  | unary => exact ⟨_, unary⟩
  | primary => exact ⟨_, primary⟩

theorem exists_word (form : Form) : ∃ word, Derives relaxed form word := by
  induction form with
  | terminal kind => exact ⟨_, .terminal kind⟩
  | phrase symbol => exact exists_phrase symbol
  | both first second one other =>
      obtain ⟨front, left⟩ := one
      obtain ⟨back, right⟩ := other
      exact ⟨_, .both left right⟩
  | either first second one _ =>
      obtain ⟨word, chosen⟩ := one
      exact ⟨_, .first chosen⟩
  | optional inner => exact ⟨_, .absent⟩
  | repeated inner => exact ⟨_, .done⟩

theorem opens_nil (form : Form) : Opens form [] := exists_word form

theorem Opens.mono {form wider : Form} {word : List Kind} (opens : Opens form word)
    (widens : ∀ word, Derives relaxed form word → Derives relaxed wider word) :
    Opens wider word := by
  obtain ⟨rest, derives⟩ := opens
  exact ⟨rest, widens _ derives⟩

/-- What may be missing at the end of the first part is missing in front of the second one. -/
theorem Opens.both {first : Form} {word : List Kind} (opens : Opens first word) (second : Form) :
    Opens (.both first second) word := by
  obtain ⟨rest, left⟩ := opens
  obtain ⟨back, right⟩ := exists_word second
  exact ⟨rest ++ back, by rw [← List.append_assoc]; exact .both left right⟩

theorem Opens.behind {first second : Form} {front word : List Kind}
    (left : Derives relaxed first front) (opens : Opens second word) :
    Opens (.both first second) (front ++ word) := by
  obtain ⟨rest, right⟩ := opens
  exact ⟨rest, by rw [List.append_assoc]; exact .both left right⟩

theorem Opens.sentence {word : List Kind} (opens : Opens (.repeated (.phrase .declaration)) word) :
    ∃ rest, Sentence (word ++ rest) := by
  obtain ⟨rest, derives⟩ := opens
  exact ⟨rest, .phrase (.both derives (.terminal .eof))⟩

/-! ## The end stands at the end -/

/-- The end is not mentioned, and neither are programs. -/
def Form.isInner : Form → Bool
  | .terminal kind => kind ≠ .eof
  | .phrase symbol => symbol ≠ .program
  | .both first second | .either first second => first.isInner && second.isInner
  | .optional inner | .repeated inner => inner.isInner

theorem isInner_relaxed {symbol : Symbol} (other : symbol ≠ .program) :
    (relaxed symbol).isInner = true := by
  cases symbol with
  | program => exact absurd rfl other
  | _ => rfl

theorem Derives.inner {form : Form} {word : List Kind} (derives : Derives relaxed form word)
    (inner : form.isInner = true) : .eof ∉ word := by
  induction derives with
  | terminal kind =>
      rw [List.mem_singleton]
      intro same
      simp [Form.isInner, ← same] at inner
  | phrase _ ih =>
      refine ih (isInner_relaxed ?_)
      simpa [Form.isInner] using inner
  | both _ _ left right =>
      obtain ⟨first, second⟩ := Bool.and_eq_true_iff.mp inner
      rw [List.mem_append, not_or]
      exact ⟨left first, right second⟩
  | first _ ih => exact ih (Bool.and_eq_true_iff.mp inner).1
  | second _ ih => exact ih (Bool.and_eq_true_iff.mp inner).2
  | absent | done => exact List.not_mem_nil
  | present _ ih => exact ih inner
  | more _ _ head tail =>
      rw [List.mem_append, not_or]
      exact ⟨head inner, tail inner⟩

theorem Sentence.declarations {word : List Kind} (sentence : Sentence word) :
    Derives relaxed (.repeated (.phrase .declaration)) word := by
  unfold Sentence at sentence
  generalize whole : word ++ [Kind.eof] = derived at sentence
  cases sentence with
  | phrase body =>
      cases body with
      | both left right =>
          cases right with
          | terminal =>
              obtain ⟨rfl, -⟩ := List.append_inj' whole rfl
              exact left

theorem Sentence.inner {word : List Kind} (sentence : Sentence word) : .eof ∉ word :=
  sentence.declarations.inner rfl

/-! ## From words to trees -/

theorem tolerates_all : Tolerates fun _ => True := ⟨trivial, fun _ _ => trivial⟩

theorem readable_assignment {tokens : List Token}
    (models : Models (Readable fun _ => True) (relaxed .assignment) tokens) :
    Readable (fun _ => True) .assignment tokens := by
  obtain ⟨front, rest, rfl, ⟨target, before, left, -⟩, assigned⟩ := models
  rcases assigned with rfl | ⟨_, back, rfl, ⟨equals, rfl, equalsKind⟩, value, after, right, -⟩
  · rw [List.append_nil]
    exact ⟨target, before, .value left, trivial⟩
  · cases isName : isReference target with
    | false => exact ⟨target, _, .misassign left isName equalsKind right, trivial⟩
    | true =>
        cases target with
        | reference name =>
            obtain ⟨rfl, nameKind, -⟩ := left.reference (by simp) rfl
            exact ⟨_, _, .assign nameKind equalsKind right, trivial⟩
        | _ => cases isName

theorem readable_relaxed (symbol : Symbol) (tokens : List Token)
    (models : Models (Readable fun _ => True) (relaxed symbol) tokens) :
    Readable (fun _ => True) symbol tokens := by
  cases symbol with
  | assignment => exact readable_assignment models
  | _ => exact readable_of_models tolerates_all _ tokens models

/-- A program of the relaxed grammar is read, perhaps with errors in it. -/
theorem Sentence.reads {tokens : List Token} (sentence : Sentence (tokens.map Token.kind)) :
    ∃ program noted, ReadsProgram tokens program noted := by
  have kinds : (tokens ++ [Token.ending 1 0]).map Token.kind = tokens.map Token.kind ++ [.eof] :=
    List.map_append
  have readable := Derives.models readable_relaxed sentence kinds
  obtain ⟨front, other, program, noted, split, reads, -⟩ := readable
  obtain ⟨rfl, -⟩ := List.append_inj' split rfl
  exact ⟨program, noted, reads⟩

end TreeWalk.Grammar
