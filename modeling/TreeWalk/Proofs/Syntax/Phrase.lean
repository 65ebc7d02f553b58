import TreeWalk.Proofs.Syntax.Grammar
import TreeWalk.Syntax.SyntaxError
import TreeWalk.Syntax.Tree

/-!
# Phrases and their trees

`Reads symbol tokens expr noted` says that the tokens are a phrase of an expression symbol and
that the grammar assigns it this tree; `ReadsStmt` and `ReadsProgram` say the same of statements
and of programs.  An assignment to something other than a name is read as its left side and
leaves an error behind: `noted` lists these errors, the latest first, and a phrase of the
language has none.

The trees settle what the grammar leaves open.  A statement that ends in an `if` without `else`
is called open, and an open statement never stands before an `else`; so each `else` goes to the
nearest `if` that can take it.
-/

set_option autoImplicit false

namespace TreeWalk.Grammar

/-- What a symbol of left-nested chains is made of. -/
structure Chain where
  operand : Symbol
  operators : List Kind
  node : Expr → Token → Expr → Expr

def chain? : Symbol → Option Chain
  | .logicOr => some ⟨.logicAnd, [.keyOr], .logical⟩
  | .logicAnd => some ⟨.equality, [.keyAnd], .logical⟩
  | .equality => some ⟨.comparison, [.bangEqual, .equalEqual], .binary⟩
  | .comparison => some ⟨.term, [.greater, .greaterEqual, .less, .lessEqual], .binary⟩
  | .term => some ⟨.factor, [.minus, .plus], .binary⟩
  | .factor => some ⟨.unary, [.slash, .star], .binary⟩
  | _ => none

/-- The value of a leaf: that of its token, or nil if the token carries none. -/
inductive Leaf (token : Token) : Value → Prop where
  | carried {literal : Literal} (kind : token.kind = .number ∨ token.kind = .string)
      (carries : token.literal = some literal) : Leaf token (.ofLiteral literal)
  | missing (kind : token.kind = .number ∨ token.kind = .string)
      (carries : token.literal = none) : Leaf token .nil
  | keyTrue (kind : token.kind = .keyTrue) : Leaf token (.boolean true)
  | keyFalse (kind : token.kind = .keyFalse) : Leaf token (.boolean false)
  | keyNil (kind : token.kind = .keyNil) : Leaf token .nil

def isReference : Expr → Bool
  | .reference _ => true
  | _ => false

inductive Reads : Symbol → List Token → Expr → List SyntaxError → Prop where
  | expression {tokens : List Token} {expr : Expr} {noted : List SyntaxError}
      (inner : Reads .assignment tokens expr noted) : Reads .expression tokens expr noted
  | value {tokens : List Token} {expr : Expr} {noted : List SyntaxError}
      (inner : Reads .logicOr tokens expr noted) : Reads .assignment tokens expr noted
  | assign {name equals : Token} {tokens : List Token} {expr : Expr} {noted : List SyntaxError}
      (nameKind : name.kind = .identifier) (equalsKind : equals.kind = .equal)
      (value : Reads .assignment tokens expr noted) :
      Reads .assignment (name :: equals :: tokens) (.assign name expr) noted
  | misassign {equals : Token} {front back : List Token} {target expr : Expr}
      {before after : List SyntaxError}
      (left : Reads .logicOr front target before) (wrong : isReference target = false)
      (equalsKind : equals.kind = .equal) (value : Reads .assignment back expr after) :
      Reads .assignment (front ++ equals :: back) target
        (⟨.invalidAssignmentTarget, equals⟩ :: (after ++ before))
  | single {symbol : Symbol} {chain : Chain} {tokens : List Token} {expr : Expr}
      {noted : List SyntaxError} (level : chain? symbol = some chain)
      (operand : Reads chain.operand tokens expr noted) : Reads symbol tokens expr noted
  | longer {symbol : Symbol} {chain : Chain} {operator : Token} {front back : List Token}
      {left right : Expr} {before after : List SyntaxError}
      (level : chain? symbol = some chain) (init : Reads symbol front left before)
      (operatorKind : operator.kind ∈ chain.operators)
      (operand : Reads chain.operand back right after) :
      Reads symbol (front ++ operator :: back) (chain.node left operator right) (after ++ before)
  | unary {operator : Token} {tokens : List Token} {expr : Expr} {noted : List SyntaxError}
      (operatorKind : operator.kind ∈ [Kind.bang, .minus])
      (operand : Reads .unary tokens expr noted) :
      Reads .unary (operator :: tokens) (.unary operator expr) noted
  | primary {tokens : List Token} {expr : Expr} {noted : List SyntaxError}
      (inner : Reads .primary tokens expr noted) : Reads .unary tokens expr noted
  | leaf {token : Token} {value : Value} (leaf : Leaf token value) :
      Reads .primary [token] (.literal value token.span) []
  | name {token : Token} (kind : token.kind = .identifier) :
      Reads .primary [token] (.reference token) []
  | group {left right : Token} {tokens : List Token} {expr : Expr} {noted : List SyntaxError}
      (leftKind : left.kind = .leftParen) (inner : Reads .expression tokens expr noted)
      (rightKind : right.kind = .rightParen) :
      Reads .primary (left :: (tokens ++ [right])) (.grouping expr) noted

inductive ReadsVar : List Token → Stmt → List SyntaxError → Prop where
  | bare {keyword name semicolon : Token} (keywordKind : keyword.kind = .keyVar)
      (nameKind : name.kind = .identifier) (semicolonKind : semicolon.kind = .semicolon) :
      ReadsVar [keyword, name, semicolon] (.var name none) []
  | initialized {keyword name equals semicolon : Token} {tokens : List Token} {expr : Expr}
      {noted : List SyntaxError} (keywordKind : keyword.kind = .keyVar)
      (nameKind : name.kind = .identifier) (equalsKind : equals.kind = .equal)
      (initializer : Reads .expression tokens expr noted)
      (semicolonKind : semicolon.kind = .semicolon) :
      ReadsVar (keyword :: name :: equals :: (tokens ++ [semicolon])) (.var name (some expr))
        noted

inductive ReadsOptional : List Token → Option Expr → List SyntaxError → Prop where
  | absent : ReadsOptional [] none []
  | present {tokens : List Token} {expr : Expr} {noted : List SyntaxError}
      (inner : Reads .expression tokens expr noted) : ReadsOptional tokens (some expr) noted

inductive ReadsExprStmt : List Token → Stmt → List SyntaxError → Prop where
  | intro {semicolon : Token} {tokens : List Token} {expr : Expr} {noted : List SyntaxError}
      (inner : Reads .expression tokens expr noted)
      (semicolonKind : semicolon.kind = .semicolon) :
      ReadsExprStmt (tokens ++ [semicolon]) (.expression expr) noted

inductive ReadsInitializer : List Token → Option Stmt → List SyntaxError → Prop where
  | absent {semicolon : Token} (semicolonKind : semicolon.kind = .semicolon) :
      ReadsInitializer [semicolon] none []
  | var {tokens : List Token} {stmt : Stmt} {noted : List SyntaxError}
      (declares : ReadsVar tokens stmt noted) : ReadsInitializer tokens (some stmt) noted
  | expression {tokens : List Token} {stmt : Stmt} {noted : List SyntaxError}
      (evaluates : ReadsExprStmt tokens stmt noted) : ReadsInitializer tokens (some stmt) noted

def withIncrement (body : Stmt) : Option Expr → Stmt
  | none => body
  | some increment => .block [body, .expression increment]

def withInitializer (loop : Stmt) : Option Stmt → Stmt
  | none => loop
  | some initializer => .block [initializer, loop]

structure Part where
  tokens : List Token
  tree : Stmt
  noted : List SyntaxError

namespace Part

def tokensOf (parts : List Part) : List Token := parts.flatMap tokens

/-- The errors of all parts, the latest first. -/
def notedIn (parts : List Part) : List SyntaxError := parts.reverse.flatMap noted

end Part

/-- A declaration, or a statement that is open or not. -/
inductive Role where
  | declaration
  | statement (isOpen : Bool)

inductive ReadsStmt : Role → List Token → Stmt → List SyntaxError → Prop where
  | var {tokens : List Token} {stmt : Stmt} {noted : List SyntaxError}
      (declares : ReadsVar tokens stmt noted) : ReadsStmt .declaration tokens stmt noted
  | statement {isOpen : Bool} {tokens : List Token} {stmt : Stmt} {noted : List SyntaxError}
      (inner : ReadsStmt (.statement isOpen) tokens stmt noted) :
      ReadsStmt .declaration tokens stmt noted
  | expression {tokens : List Token} {stmt : Stmt} {noted : List SyntaxError}
      (evaluates : ReadsExprStmt tokens stmt noted) :
      ReadsStmt (.statement false) tokens stmt noted
  | print {keyword semicolon : Token} {tokens : List Token} {expr : Expr}
      {noted : List SyntaxError} (keywordKind : keyword.kind = .keyPrint)
      (inner : Reads .expression tokens expr noted)
      (semicolonKind : semicolon.kind = .semicolon) :
      ReadsStmt (.statement false) (keyword :: (tokens ++ [semicolon])) (.print expr) noted
  | block {left right : Token} {parts : List Part} (leftKind : left.kind = .leftBrace)
      (each : ∀ part ∈ parts, ReadsStmt .declaration part.tokens part.tree part.noted)
      (rightKind : right.kind = .rightBrace) :
      ReadsStmt (.statement false) (left :: (Part.tokensOf parts ++ [right]))
        (.block (parts.map Part.tree)) (Part.notedIn parts)
  | ifOnly {keyword left right : Token} {isOpen : Bool} {test body : List Token}
      {condition : Expr} {onTrue : Stmt} {before after : List SyntaxError}
      (keywordKind : keyword.kind = .keyIf) (leftKind : left.kind = .leftParen)
      (tested : Reads .expression test condition before) (rightKind : right.kind = .rightParen)
      (taken : ReadsStmt (.statement isOpen) body onTrue after) :
      ReadsStmt (.statement true) (keyword :: left :: (test ++ right :: body))
        (.branch condition onTrue none) (after ++ before)
  | ifElse {keyword left right otherwise : Token} {isOpen : Bool}
      {test body alternative : List Token} {condition : Expr} {onTrue onFalse : Stmt}
      {before after last : List SyntaxError}
      (keywordKind : keyword.kind = .keyIf) (leftKind : left.kind = .leftParen)
      (tested : Reads .expression test condition before) (rightKind : right.kind = .rightParen)
      (taken : ReadsStmt (.statement false) body onTrue after)
      (otherwiseKind : otherwise.kind = .keyElse)
      (refused : ReadsStmt (.statement isOpen) alternative onFalse last) :
      ReadsStmt (.statement isOpen)
        (keyword :: left :: (test ++ right :: (body ++ otherwise :: alternative)))
        (.branch condition onTrue (some onFalse)) (last ++ (after ++ before))
  | whileLoop {keyword left right : Token} {isOpen : Bool} {test body : List Token}
      {condition : Expr} {round : Stmt} {before after : List SyntaxError}
      (keywordKind : keyword.kind = .keyWhile) (leftKind : left.kind = .leftParen)
      (tested : Reads .expression test condition before) (rightKind : right.kind = .rightParen)
      (repeated : ReadsStmt (.statement isOpen) body round after) :
      ReadsStmt (.statement isOpen) (keyword :: left :: (test ++ right :: body))
        (.loop condition round) (after ++ before)
  | forLoop {keyword left middle right : Token} {isOpen : Bool} {first test last body : List Token}
      {initializer : Option Stmt} {condition increment : Option Expr} {round : Stmt}
      {noted₁ noted₂ noted₃ noted₄ : List SyntaxError}
      (keywordKind : keyword.kind = .keyFor) (leftKind : left.kind = .leftParen)
      (initialized : ReadsInitializer first initializer noted₁)
      (tested : ReadsOptional test condition noted₂) (middleKind : middle.kind = .semicolon)
      (stepped : ReadsOptional last increment noted₃) (rightKind : right.kind = .rightParen)
      (repeated : ReadsStmt (.statement isOpen) body round noted₄) :
      ReadsStmt (.statement isOpen)
        (keyword :: left :: (first ++ (test ++ middle :: (last ++ right :: body))))
        (withInitializer
          (.loop (condition.getD (.literal (.boolean true) keyword.span))
            (withIncrement round increment))
          initializer)
        (noted₄ ++ (noted₃ ++ (noted₂ ++ noted₁)))

/-- The tokens of a program, the end token left out. -/
def ReadsProgram (tokens : List Token) (program : List Stmt) (noted : List SyntaxError) : Prop :=
  ∃ parts : List Part,
    (∀ part ∈ parts, ReadsStmt .declaration part.tokens part.tree part.noted) ∧
      tokens = Part.tokensOf parts ∧ program = parts.map Part.tree ∧ noted = Part.notedIn parts

end TreeWalk.Grammar
