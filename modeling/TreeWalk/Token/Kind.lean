/-!
The kinds of token of the language and what is known of each: its name, its fixed spelling,
whether it is a reserved word, and whether a statement can begin with it.
-/
set_option autoImplicit false

namespace TreeWalk

inductive Kind where
  | leftParen
  | rightParen
  | leftBrace
  | rightBrace
  | comma
  | dot
  | minus
  | plus
  | semicolon
  | slash
  | star
  | bang
  | bangEqual
  | equal
  | equalEqual
  | greater
  | greaterEqual
  | less
  | lessEqual
  | identifier
  | string
  | number
  | keyAnd
  | keyClass
  | keyElse
  | keyFalse
  | keyFun
  | keyFor
  | keyIf
  | keyNil
  | keyOr
  | keyPrint
  | keyReturn
  | keySuper
  | keyThis
  | keyTrue
  | keyVar
  | keyWhile
  | eof
  deriving DecidableEq, Repr

namespace Kind

def all : List Kind :=
  [leftParen, rightParen, leftBrace, rightBrace, comma, dot, minus, plus, semicolon, slash,
    star, bang, bangEqual, equal, equalEqual, greater, greaterEqual, less, lessEqual,
    identifier, string, number, keyAnd, keyClass, keyElse, keyFalse, keyFun, keyFor, keyIf,
    keyNil, keyOr, keyPrint, keyReturn, keySuper, keyThis, keyTrue, keyVar, keyWhile, eof]

def name : Kind → String
  | leftParen => "LeftParen"
  | rightParen => "RightParen"
  | leftBrace => "LeftBrace"
  | rightBrace => "RightBrace"
  | comma => "Comma"
  | dot => "Dot"
  | minus => "Minus"
  | plus => "Plus"
  | semicolon => "Semicolon"
  | slash => "Slash"
  | star => "Star"
  | bang => "Bang"
  | bangEqual => "BangEqual"
  | equal => "Equal"
  | equalEqual => "EqualEqual"
  | greater => "Greater"
  | greaterEqual => "GreaterEqual"
  | less => "Less"
  | lessEqual => "LessEqual"
  | identifier => "Identifier"
  | string => "String"
  | number => "Number"
  | keyAnd => "And"
  | keyClass => "Class"
  | keyElse => "Else"
  | keyFalse => "False"
  | keyFun => "Fun"
  | keyFor => "For"
  | keyIf => "If"
  | keyNil => "Nil"
  | keyOr => "Or"
  | keyPrint => "Print"
  | keyReturn => "Return"
  | keySuper => "Super"
  | keyThis => "This"
  | keyTrue => "True"
  | keyVar => "Var"
  | keyWhile => "While"
  | eof => "Eof"

/-- How messages spell a kind: its fixed text, or a description if it has none. -/
def spelling : Kind → String
  | leftParen => "("
  | rightParen => ")"
  | leftBrace => "\x7b"
  | rightBrace => "\x7d"
  | comma => ","
  | dot => "."
  | minus => "-"
  | plus => "+"
  | semicolon => ";"
  | slash => "/"
  | star => "*"
  | bang => "!"
  | bangEqual => "!="
  | equal => "="
  | equalEqual => "=="
  | greater => ">"
  | greaterEqual => ">="
  | less => "<"
  | lessEqual => "<="
  | identifier => "identifier"
  | string => "string"
  | number => "number"
  | keyAnd => "and"
  | keyClass => "class"
  | keyElse => "else"
  | keyFalse => "false"
  | keyFun => "fun"
  | keyFor => "for"
  | keyIf => "if"
  | keyNil => "nil"
  | keyOr => "or"
  | keyPrint => "print"
  | keyReturn => "return"
  | keySuper => "super"
  | keyThis => "this"
  | keyTrue => "true"
  | keyVar => "var"
  | keyWhile => "while"
  | eof => "end of file"

def keywords : List Kind :=
  [keyAnd, keyClass, keyElse, keyFalse, keyFun, keyFor, keyIf, keyNil, keyOr, keyPrint,
    keyReturn, keySuper, keyThis, keyTrue, keyVar, keyWhile]

def isReserved (kind : Kind) : Bool := keywords.contains kind

/-- Parsing resumes at these kinds after a syntax error. -/
def startsStatement : Kind → Bool
  | keyClass | keyFor | keyFun | keyIf | keyPrint | keyReturn | keyVar | keyWhile => true
  | _ => false

def ofWord? (word : String) : Option Kind := keywords.find? fun kind => kind.spelling = word

def ofName? (text : String) : Option Kind := all.find? fun kind => kind.name = text

end Kind

end TreeWalk
