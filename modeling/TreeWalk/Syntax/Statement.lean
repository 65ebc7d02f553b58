import TreeWalk.Syntax.Expression
import TreeWalk.Token.Scanner

/-!
Reading statements and programs. A `for` statement is read as the block and the loop that it
stands for. When a declaration cannot be read, the error is noted, tokens are skipped up to a
place where a statement can begin, and reading goes on.
-/
set_option autoImplicit false

namespace TreeWalk

namespace Rule

def expressionStatement : Rule Stmt := do
  let expr ← expression
  let _ ← expect .semicolon "after value"
  pure (.expression expr)

def printStatement : Rule Stmt := do
  let expr ← expression
  let _ ← expect .semicolon "after value"
  pure (.print expr)

def variableDeclaration : Rule Stmt := do
  let name ← expectName
  let initializer ← do
    match ← accept? [.equal] with
    | none => pure none
    | some _ => do
      let value ← expression
      pure (some value)
  let _ ← expect .semicolon "after variable declaration"
  pure (.var name initializer)

def declaration (statement : Rule Stmt) : Rule Stmt := do
  match ← accept? [.keyVar] with
  | some _ => variableDeclaration
  | none => statement

def declarations (statement : Rule Stmt) : Nat → Rule (List Stmt)
  | 0 => pure []
  | count + 1 => do
    if (← sees .rightBrace) || (← peek).isEnd then pure []
    else
      let first ← declaration statement
      let rest ← declarations statement count
      pure (first :: rest)

def blockBody (statement : Rule Stmt) : Rule (List Stmt) := do
  let body ← declarations statement (← bound)
  let _ ← expect .rightBrace "after block"
  pure body

def ifStatement (statement : Rule Stmt) : Rule Stmt := do
  let _ ← expect .leftParen "after 'if'"
  let condition ← expression
  let _ ← expect .rightParen "after if condition"
  let onTrue ← statement
  match ← accept? [.keyElse] with
  | none => pure (.branch condition onTrue none)
  | some _ => do
    let onFalse ← statement
    pure (.branch condition onTrue (some onFalse))

def whileStatement (statement : Rule Stmt) : Rule Stmt := do
  let _ ← expect .leftParen "after 'while'"
  let condition ← expression
  let _ ← expect .rightParen "after condition"
  let body ← statement
  pure (.loop condition body)

def forInitializer : Rule (Option Stmt) := do
  match ← accept? [.semicolon, .keyVar] with
  | none => some <$> expressionStatement
  | some token =>
    if token.kind = .semicolon then pure none else some <$> variableDeclaration

def optionalClause (endsWith : Kind) (context : String) : Rule (Option Expr) := do
  let clause ← do
    if ← sees endsWith then pure none else some <$> expression
  let _ ← expect endsWith context
  pure clause

/-- The loop that a `for` statement stands for: the increment follows the body in a block of
their own, an absent condition is true, and the initializer stands before the loop in a block
around both. -/
def forLoop (keyword : Token) (initializer : Option Stmt) (condition increment : Option Expr)
    (body : Stmt) : Stmt :=
  let round := match increment with
    | none => body
    | some expr => .block [body, .expression expr]
  let repeated := .loop (condition.getD (.literal (.boolean true) keyword.span)) round
  match initializer with
  | none => repeated
  | some first => .block [first, repeated]

def forStatement (statement : Rule Stmt) (keyword : Token) : Rule Stmt := do
  let _ ← expect .leftParen "after 'for'"
  let initializer ← forInitializer
  let condition ← optionalClause .semicolon "after loop condition"
  let increment ← optionalClause .rightParen "after for clauses"
  let body ← statement
  pure (forLoop keyword initializer condition increment body)

def statementWithin : Nat → Rule Stmt
  | 0 => expressionStatement
  | depth + 1 => do
    match ← accept? [.keyPrint, .leftBrace, .keyIf, .keyWhile, .keyFor] with
    | none => expressionStatement
    | some token =>
      match token.kind with
      | .keyPrint => printStatement
      | .leftBrace => .block <$> blockBody (statementWithin depth)
      | .keyIf => ifStatement (statementWithin depth)
      | .keyWhile => whileStatement (statementWithin depth)
      | _ => forStatement (statementWithin depth) token

def topDeclaration : Rule Stmt := do declaration (statementWithin (← bound))

end Rule

namespace Parser

/-- Whether a declaration can be looked for here: behind a semicolon, or before a token that
starts a statement. -/
def atBoundary (parser : Parser) : Bool :=
  (parser.consumed.head?.map Token.kind) = some .semicolon || parser.next.kind.startsStatement

def skipToBoundary : Nat → Parser → Parser
  | 0, parser => parser
  | count + 1, parser =>
    if parser.ahead.isEmpty || parser.atBoundary then parser
    else skipToBoundary count parser.step

/-- Leaves the place of an error. A declaration that consumed nothing gives up its first token
even at a boundary. -/
def synchronize (parser : Parser) (start : Nat) : Parser :=
  let moved := if parser.position = start then parser.step else parser
  skipToBoundary moved.ahead.length moved

def recover (parser : Parser) (start : Nat) (error : SyntaxError) : Parser :=
  let resumed := parser.synchronize start
  { resumed with
    errors := error :: resumed.errors
    recoveries := ⟨error, start, parser.position, resumed.position⟩ :: resumed.recoveries }

/-- Reads at most `count` declarations; those that were read, the latest first, follow
`done`. -/
def program : Nat → List Stmt → Parser → List Stmt × Parser
  | 0, done, parser => (done, parser)
  | count + 1, done, parser =>
    if parser.ahead.isEmpty then (done, parser)
    else
      match Rule.topDeclaration parser with
      | .ok statement after => program count (statement :: done) after
      | .error error after => program count done (after.recover parser.position error)

end Parser

/-- What one parse yields: the statements that could be read, and all errors in the order in
which they were noted. -/
structure Parsed where
  statements : List Stmt
  errors : List SyntaxError
  recoveries : List Recovery

def Parsed.isOk (parsed : Parsed) : Bool := parsed.errors.isEmpty

def Parser.parse (parser : Parser) : Parsed × Parser :=
  let (done, after) := Parser.program parser.ahead.length [] parser
  ({ statements := done.reverse
     errors := after.errors.reverse
     recoveries := after.recoveries.reverse },
   { after with errors := [], recoveries := [] })

def Parsed.ofTokens (tokens : List Token) : Parsed := (Parser.ofTokens tokens).parse.1

/-- Parses the tokens of a text; characters that are no token are passed over. -/
def Parsed.ofSource (source : String) : Parsed × List LexicalError :=
  let scan := Scan.ofSource source
  (.ofTokens scan.tokens, scan.errors)

end TreeWalk
