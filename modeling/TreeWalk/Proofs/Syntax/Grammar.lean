import TreeWalk.Token.Kind

/-!
# The grammar of the language

Rules over the kinds of tokens, written with options and repetitions, and the words that a set
of rules derives.  `language` is the grammar of the language.  It is ambiguous in one place: an
`else` may belong to any `if` before it that has none.
-/

set_option autoImplicit false

namespace TreeWalk.Grammar

inductive Symbol where
  | program
  | declaration
  | varDecl
  | statement
  | exprStmt
  | printStmt
  | ifStmt
  | whileStmt
  | forStmt
  | block
  | expression
  | assignment
  | logicOr
  | logicAnd
  | equality
  | comparison
  | term
  | factor
  | unary
  | primary
  deriving DecidableEq, Repr

inductive Form where
  | terminal (kind : Kind)
  | phrase (symbol : Symbol)
  | both (first second : Form)
  | either (first second : Form)
  | optional (inner : Form)
  | repeated (inner : Form)

namespace Form

def sequence (first : Form) : List Form → Form
  | [] => first
  | second :: rest => both first (sequence second rest)

def oneOf (first : Form) : List Form → Form
  | [] => first
  | second :: rest => either first (oneOf second rest)

/-- Operands with one of these kinds between each two of them. -/
def chained (operand : Symbol) (first : Kind) (others : List Kind) : Form :=
  sequence (phrase operand)
    [repeated (sequence (oneOf (terminal first) (others.map terminal)) [phrase operand])]

end Form

open Form

/-- The rules of the language, from whole programs down to leaves. -/
def language : Symbol → Form
  | .program => sequence (repeated (phrase .declaration)) [terminal .eof]
  | .declaration => oneOf (phrase .varDecl) [phrase .statement]
  | .varDecl =>
      sequence (terminal .keyVar)
        [terminal .identifier, optional (sequence (terminal .equal) [phrase .expression]),
          terminal .semicolon]
  | .statement =>
      oneOf (phrase .exprStmt)
        [phrase .printStmt, phrase .ifStmt, phrase .whileStmt, phrase .forStmt, phrase .block]
  | .exprStmt => sequence (phrase .expression) [terminal .semicolon]
  | .printStmt => sequence (terminal .keyPrint) [phrase .expression, terminal .semicolon]
  | .block =>
      sequence (terminal .leftBrace) [repeated (phrase .declaration), terminal .rightBrace]
  | .ifStmt =>
      sequence (terminal .keyIf)
        [terminal .leftParen, phrase .expression, terminal .rightParen, phrase .statement,
          optional (sequence (terminal .keyElse) [phrase .statement])]
  | .whileStmt =>
      sequence (terminal .keyWhile)
        [terminal .leftParen, phrase .expression, terminal .rightParen, phrase .statement]
  | .forStmt =>
      sequence (terminal .keyFor)
        [terminal .leftParen, oneOf (phrase .varDecl) [phrase .exprStmt, terminal .semicolon],
          optional (phrase .expression), terminal .semicolon,
          optional (phrase .expression), terminal .rightParen, phrase .statement]
  | .expression => phrase .assignment
  | .assignment =>
      oneOf (sequence (terminal .identifier) [terminal .equal, phrase .assignment])
        [phrase .logicOr]
  | .logicOr => chained .logicAnd .keyOr []
  | .logicAnd => chained .equality .keyAnd []
  | .equality => chained .comparison .bangEqual [.equalEqual]
  | .comparison => chained .term .greater [.greaterEqual, .less, .lessEqual]
  | .term => chained .factor .minus [.plus]
  | .factor => chained .unary .slash [.star]
  | .unary =>
      oneOf (sequence (oneOf (terminal .bang) [terminal .minus]) [phrase .unary])
        [phrase .primary]
  | .primary =>
      oneOf (terminal .number)
        [terminal .string, terminal .keyTrue, terminal .keyFalse, terminal .keyNil,
          terminal .identifier,
          sequence (terminal .leftParen) [phrase .expression, terminal .rightParen]]

/-- The words of a form under given rules. -/
inductive Derives (rules : Symbol → Form) : Form → List Kind → Prop where
  | terminal (kind : Kind) : Derives rules (.terminal kind) [kind]
  | phrase {symbol : Symbol} {word : List Kind} (body : Derives rules (rules symbol) word) :
      Derives rules (.phrase symbol) word
  | both {first second : Form} {front back : List Kind}
      (left : Derives rules first front) (right : Derives rules second back) :
      Derives rules (.both first second) (front ++ back)
  | first {first second : Form} {word : List Kind} (chosen : Derives rules first word) :
      Derives rules (.either first second) word
  | second {first second : Form} {word : List Kind} (chosen : Derives rules second word) :
      Derives rules (.either first second) word
  | absent {inner : Form} : Derives rules (.optional inner) []
  | present {inner : Form} {word : List Kind} (chosen : Derives rules inner word) :
      Derives rules (.optional inner) word
  | done {inner : Form} : Derives rules (.repeated inner) []
  | more {inner : Form} {front back : List Kind}
      (head : Derives rules inner front) (tail : Derives rules (.repeated inner) back) :
      Derives rules (.repeated inner) (front ++ back)

variable {rules : Symbol → Form}

theorem Derives.flatten {inner : Form} (parts : List (List Kind))
    (each : ∀ part ∈ parts, Derives rules inner part) :
    Derives rules (.repeated inner) parts.flatten := by
  induction parts with
  | nil => exact .done
  | cons part rest ih =>
      exact .more (each part (List.mem_cons_self ..))
        (ih fun other member => each other (List.mem_cons_of_mem _ member))

theorem Derives.snoc {inner : Form} {front back : List Kind}
    (init : Derives rules (.repeated inner) front) (last : Derives rules inner back) :
    Derives rules (.repeated inner) (front ++ back) := by
  generalize shape : Form.repeated inner = form at init
  induction init with
  | terminal | phrase | both | first | second | absent | present => cases shape
  | done =>
      cases shape
      simpa using Derives.more last .done
  | @more other front middle head _ _ ih =>
      cases shape
      rw [List.append_assoc]
      exact .more head (ih rfl)

end TreeWalk.Grammar
