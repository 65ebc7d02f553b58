import TreeWalk.Syntax.Statement

/-!
# A parser with a cursor

The parser once more, over a vector of tokens and an index into it that nothing guards.  Whatever
must not happen is a `Trap`: a look behind the last token or in front of the first one, a step
beyond the first end token, a loop or a nesting that goes on although its rounds are used up.
-/

set_option autoImplicit false

namespace TreeWalk

inductive Trap where
  /-- There is no token at the index. -/
  | outside
  /-- The token in front of the first one was asked for. -/
  | underflow
  /-- The index was moved beyond the first end token. -/
  | beyond
  /-- There are no rounds left. -/
  | endless
  deriving DecidableEq, Repr

structure Cursor where
  tokens : List Token
  current : Nat
  /-- The errors of the parse under way, in order. -/
  errors : List SyntaxError
  deriving DecidableEq

namespace Cursor

/-- Why an action did not succeed. -/
inductive Halt where
  | refused (error : SyntaxError)
  | trapped (trap : Trap)
  deriving DecidableEq

abbrev Action (α : Type) := EStateM Halt Cursor α

/-- A vector that does not end with an end token gets one. -/
def closed (given : List Token) : List Token :=
  if given.getLast?.any Token.isEnd then given else given ++ [.endingAfter given]

def new (given : List Token) : Cursor := ⟨closed given, 0, []⟩

variable {α : Type}

def trap (trap : Trap) : Action α := throw (.trapped trap)

/-! ## Looking and moving -/

def peek : Action Token := fun cursor =>
  match cursor.tokens[cursor.current]? with
  | none => .error (.trapped .outside) cursor
  | some token => .ok token cursor

def previous : Action Token := fun cursor =>
  match cursor.current with
  | 0 => .error (.trapped .underflow) cursor
  | place + 1 =>
    match cursor.tokens[place]? with
    | none => .error (.trapped .outside) cursor
    | some token => .ok token cursor

def place : Action Nat := fun cursor => .ok cursor.current cursor

/-- Moves the index on.  It must not go beyond the first end token. -/
def advance : Action Unit := fun cursor =>
  if cursor.current < cursor.tokens.findIdx Token.isEnd then
    .ok () { cursor with current := cursor.current + 1 }
  else .error (.trapped .beyond) cursor

def isAtEnd : Action Bool := do
  let token ← peek
  pure token.isEnd

def step : Action Unit := do
  if ← isAtEnd then pure () else advance

def check (kind : Kind) : Action Bool := do
  if ← isAtEnd then pure false
  else
    let token ← peek
    pure (token.kind = kind)

/-- Whether one of these kinds is next, which is then stepped over. -/
def accepts (kinds : List Kind) : Action Bool := do
  if ← kinds.anyM check then
    step
    pure true
  else pure false

def note (error : SyntaxError) : Action Unit := fun cursor =>
  .ok () { cursor with errors := cursor.errors ++ [error] }

/-- The errors noted so far; none are left behind. -/
def takeErrors : Action (List SyntaxError) := fun cursor =>
  .ok cursor.errors { cursor with errors := [] }

def refuse (cause : SyntaxCause) : Action α := do
  let token ← peek
  throw (.refused ⟨cause, token⟩)

def expectOne (kind : Kind) (context : String) : Action Token := do
  if ← check kind then
    step
    previous
  else refuse (.unexpectedToken kind context)

def expectIdent : Action Token := do
  if ← check .identifier then
    step
    previous
  else refuse .expectedVariableName

/-! ## Expressions -/

def chain (rung : Rung) (operand : Action Expr) : Nat → Expr → Action Expr
  | 0, _ => trap .endless
  | rounds + 1, left => do
    if ← accepts rung.operators then
      let operator ← previous
      let right ← operand
      chain rung operand rounds (rung.node left operator right)
    else pure left

def climb (limit : Nat) : List Rung → Action Expr → Action Expr
  | [], operand => operand
  | rung :: tighter, operand => do
    let left ← climb limit tighter operand
    chain rung (climb limit tighter operand) limit left

def unary (operand : Action Expr) : Nat → Action Expr
  | 0 => trap .endless
  | rounds + 1 => do
    if ← accepts [.bang, .minus] then
      let operator ← previous
      let right ← unary operand rounds
      pure (.unary operator right)
    else operand

def primary (inner : Action Expr) : Action Expr := do
  let token ← peek
  match Rule.leafValue? token with
  | some value => do
    step
    pure (.literal value token.span)
  | none =>
    match token.kind with
    | .identifier => do
      step
      pure (.reference token)
    | .leftParen => do
      step
      let expr ← inner
      let _ ← expectOne .rightParen "after expression"
      pure (.grouping expr)
    | _ => throw (.refused ⟨.expectedExpression, token⟩)

def assigned (target : Expr) (equals : Token) (value : Expr) : Action Expr :=
  match target with
  | .reference name => pure (.assign name value)
  | other => do
    note ⟨.invalidAssignmentTarget, equals⟩
    pure other

def assignment (limit : Nat) : Nat → Action Expr
  | 0 => trap .endless
  | depth + 1 => do
    let target ← climb limit Rung.ladder (unary (primary (assignment limit depth)) limit)
    if ← accepts [.equal] then
      let equals ← previous
      let value ← assignment limit depth
      assigned target equals value
    else pure target

def expression (limit : Nat) : Action Expr := assignment limit limit

/-! ## Statements -/

def expressionStatement (limit : Nat) : Action Stmt := do
  let expr ← expression limit
  let _ ← expectOne .semicolon "after value"
  pure (.expression expr)

def printStatement (limit : Nat) : Action Stmt := do
  let expr ← expression limit
  let _ ← expectOne .semicolon "after value"
  pure (.print expr)

def variableDeclaration (limit : Nat) : Action Stmt := do
  let name ← expectIdent
  let initializer ← do
    if ← accepts [.equal] then
      let value ← expression limit
      pure (some value)
    else pure none
  let _ ← expectOne .semicolon "after variable declaration"
  pure (.var name initializer)

def declaration (limit : Nat) (statement : Action Stmt) : Action Stmt := do
  if ← accepts [.keyVar] then variableDeclaration limit else statement

def declarations (limit : Nat) (statement : Action Stmt) : Nat → Action (List Stmt)
  | 0 => trap .endless
  | rounds + 1 => do
    if (← check .rightBrace) || (← peek).isEnd then pure []
    else
      let first ← declaration limit statement
      let rest ← declarations limit statement rounds
      pure (first :: rest)

def blockBody (limit : Nat) (statement : Action Stmt) : Action (List Stmt) := do
  let body ← declarations limit statement limit
  let _ ← expectOne .rightBrace "after block"
  pure body

def ifStatement (limit : Nat) (statement : Action Stmt) : Action Stmt := do
  let _ ← expectOne .leftParen "after 'if'"
  let condition ← expression limit
  let _ ← expectOne .rightParen "after if condition"
  let onTrue ← statement
  if ← accepts [.keyElse] then
    let onFalse ← statement
    pure (.branch condition onTrue (some onFalse))
  else pure (.branch condition onTrue none)

def whileStatement (limit : Nat) (statement : Action Stmt) : Action Stmt := do
  let _ ← expectOne .leftParen "after 'while'"
  let condition ← expression limit
  let _ ← expectOne .rightParen "after condition"
  let body ← statement
  pure (.loop condition body)

def forInitializer (limit : Nat) : Action (Option Stmt) := do
  let token ← peek
  match token.kind with
  | .semicolon => do
    step
    pure none
  | .keyVar => do
    step
    some <$> variableDeclaration limit
  | _ => some <$> expressionStatement limit

def optionalClause (limit : Nat) (endsWith : Kind) (context : String) :
    Action (Option Expr) := do
  let clause ← do
    if ← check endsWith then pure none else some <$> expression limit
  let _ ← expectOne endsWith context
  pure clause

/-- What stands behind the keyword of a `for` statement. -/
def forClauses (limit : Nat) (statement : Action Stmt) (keyword : Token) : Action Stmt := do
  let _ ← expectOne .leftParen "after 'for'"
  let initializer ← forInitializer limit
  let condition ← optionalClause limit .semicolon "after loop condition"
  let increment ← optionalClause limit .rightParen "after for clauses"
  let body ← statement
  pure (Rule.forLoop keyword initializer condition increment body)

/-- The keyword is the token behind the cursor. -/
def forStatement (limit : Nat) (statement : Action Stmt) : Action Stmt := do
  let keyword ← previous
  forClauses limit statement keyword

def statementWithin (limit : Nat) : Nat → Action Stmt
  | 0 => trap .endless
  | depth + 1 => do
    let token ← peek
    match token.kind with
    | .keyPrint => do
      step
      printStatement limit
    | .leftBrace => do
      step
      .block <$> blockBody limit (statementWithin limit depth)
    | .keyIf => do
      step
      ifStatement limit (statementWithin limit depth)
    | .keyWhile => do
      step
      whileStatement limit (statementWithin limit depth)
    | .keyFor => do
      step
      forStatement limit (statementWithin limit depth)
    | _ => expressionStatement limit

def topDeclaration (limit : Nat) : Action Stmt :=
  declaration limit (statementWithin limit limit)

/-! ## Programs -/

def isBehindSemicolon : Action Bool := do
  if 0 < (← place) then
    let token ← previous
    pure (token.kind = .semicolon)
  else pure false

def skip : Nat → Action Unit
  | 0 => trap .endless
  | rounds + 1 => do
    if ← isAtEnd then pure ()
    else if ← isBehindSemicolon then pure ()
    else if (← peek).kind.startsStatement then pure ()
    else
      step
      skip rounds

def synchronize (limit start : Nat) : Action Unit := do
  if (← place) = start then step
  skip limit

/-- A refusal is a result like any other; a trap is not. -/
def attempt (action : Action α) : Action (Except SyntaxError α) := fun cursor =>
  match action cursor with
  | .ok value after => .ok (.ok value) after
  | .error (.refused error) after => .ok (.error error) after
  | .error (.trapped trap) after => .error (.trapped trap) after

def program (limit : Nat) : Nat → List Stmt → Action (List Stmt)
  | 0, _ => trap .endless
  | rounds + 1, done => do
    if ← isAtEnd then pure done
    else
      let start ← place
      match ← attempt (topDeclaration limit) with
      | .ok statement => program limit rounds (statement :: done)
      | .error error => do
        note error
        synchronize limit start
        program limit rounds done

/-- The statements that could be read, and the errors. -/
def parse (limit : Nat) : Action (List Stmt × List SyntaxError) := do
  let done ← program limit limit []
  let errors ← takeErrors
  pure (done.reverse, errors)

end Cursor

end TreeWalk
