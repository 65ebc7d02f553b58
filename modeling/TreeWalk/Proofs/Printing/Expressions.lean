import TreeWalk.Proofs.Diagnosis.Origins
import TreeWalk.Proofs.Printing.Forms
import TreeWalk.Proofs.Printing.Numbers
import TreeWalk.Proofs.Similarity.Trees
import TreeWalk.Syntax.Printer

/-!
# Expressions can be told from their text

An expression is shown as a form in parentheses.  If its tokens were scanned and its numbers are
finite, the words of this form are lexemes, numbers and quoted strings, so that the text tells the
form.  The form tells the expression but for lines and spans: a lexeme tells the kind of its token,
the kind of a head tells the node, and unary and binary operators differ in the number of their
operands.
-/

set_option autoImplicit false

namespace TreeWalk

open TreeWalk.Alignment (anywhere)
open Lexical (Letter Matches)
open PrefixForm (Bare Word behind delimiters)

/-! ## Forms -/

def Expr.form : Expr → PrefixForm
  | literal value _ => .word value.source
  | grouping inner => .node "group" [inner.form]
  | unary operator right => .node operator.lexeme [right.form]
  | binary left operator right | logical left operator right =>
      .node operator.lexeme [left.form, right.form]
  | reference name => .word name.lexeme
  | assign name value => .node "=" [.word name.lexeme, value.form]

theorem Expr.text_form (expr : Expr) : expr.form.text = expr.display.toList := by
  induction expr with
  | literal | reference => rfl
  | grouping inner ih | unary operator inner ih =>
      simp [form, display, PrefixForm.text, behind, ih]
  | binary left operator right leftIh rightIh | logical left operator right leftIh rightIh =>
      simp [form, display, PrefixForm.text, behind, leftIh, rightIh]
  | assign name value ih => simp [form, display, PrefixForm.text, behind, ih]

/-! ## Lexemes -/

namespace Lexical

theorem operators_bare : ∀ entry ∈ operators,
    entry.2 ∉ [Kind.leftParen, .rightParen, .string, .number] → Bare entry.1 := by decide

theorem not_mem_delimiters {char : Char} (part : Letter char ∨ char.isDigit = true) :
    char ∉ delimiters := by
  intro member
  have special : char ∈ blanks ++ marks ++ ['"'] := by
    revert member
    simp only [delimiters, List.mem_cons, List.not_mem_nil, or_false]
    rintro (rfl | rfl | rfl | rfl) <;> decide
  obtain ⟨digit, alpha, underscore⟩ := special_plain special
  rcases part with (isAlpha | isUnderscore) | isDigit
  · simp [alpha] at isAlpha
  · exact underscore isUnderscore
  · simp [digit] at isDigit

theorem Matches.bare {piece : List Char} {kind : Kind} {literal : Option Literal}
    (found : Matches piece (.token kind literal))
    (other : kind ∉ [Kind.leftParen, .rightParen, .string, .number]) : Bare piece := by
  cases found with
  | operator known => exact operators_bare _ known other
  | string => exact absurd (by decide) other
  | number => exact absurd (by decide) other
  | word begins continues =>
      refine ⟨List.cons_ne_nil _ _, List.forall_mem_cons.mpr ⟨?_, fun char member => ?_⟩⟩
      · exact not_mem_delimiters (Or.inl begins)
      · exact not_mem_delimiters (continues char member)

theorem operators_kind : ∀ entry ∈ operators, entry.2 ≠ .identifier := by decide

theorem Matches.letter {piece : List Char} {literal : Option Literal}
    (found : Matches piece (.token .identifier literal)) :
    ∃ first rest, piece = first :: rest ∧ Letter first := by
  generalize same : Reading.token Kind.identifier literal = reading at found
  cases found with
  | operator known =>
      obtain ⟨rfl, -⟩ := Reading.token.inj same
      exact absurd rfl (operators_kind _ known)
  | word begins => exact ⟨_, _, rfl, begins⟩
  | _ => cases same

theorem matches_letters {word : String} (some : word.toList ≠ [])
    (letters : word.toList.all Char.isAlpha = true) :
    Matches word.toList (.token (wordKind word) none) := by
  obtain ⟨first, rest, split⟩ := List.exists_cons_of_ne_nil some
  rw [split, List.all_eq_true] at letters
  have same : String.ofList (first :: rest) = word := by rw [← split, String.ofList_toList]
  rw [split, ← same]
  refine .word (Or.inl (letters first List.mem_cons_self)) fun char member => ?_
  exact Or.inl (Or.inl (letters char (List.mem_cons_of_mem _ member)))

end Lexical

/-! ## Words of trees -/

/-- The token has one of these kinds, and is read from its lexeme. -/
structure Token.ReadAs (kinds : List Kind) (token : Token) : Prop where
  kind : token.kind ∈ kinds
  scanned : Matches token.lexeme.toList (.token token.kind token.literal)

namespace Token.ReadAs

variable {kinds kinds' : List Kind} {token token' : Token}

theorem kind_eq (read : token.ReadAs kinds) {kind : Kind} {literal : Option Literal}
    (found : Matches token.lexeme.toList (.token kind literal)) : kind ∈ kinds := by
  obtain ⟨same, -⟩ := Lexical.Reading.token.inj (read.scanned.unique found)
  exact same ▸ read.kind

theorem alike (read : token.ReadAs kinds) (read' : token'.ReadAs kinds')
    (same : token.lexeme = token'.lexeme) : anywhere.Tokens token token' := by
  have found := read.scanned
  rw [same] at found
  obtain ⟨kind, literal⟩ := Lexical.Reading.token.inj (found.unique read'.scanned)
  exact ⟨kind, same, literal, trivial, trivial⟩

end Token.ReadAs

/-- The value of a literal, if it is a number, is finite. -/
def Value.Finite : Value → Prop
  | number value => Number.IsFinite value
  | text _ | boolean _ | nil => True

namespace Value

variable {value value' : Value}

theorem word_source (finite : value.Finite) : Word value.source.toList := by
  cases value with
  | number value =>
      have apart : Bare ('.' :: Number.scaleMarks) := by decide
      obtain ⟨first, rest, shown, -, marks⟩ := Number.shape_shownText finite
      show Word (Number.shownText value).toList
      rw [shown]
      refine .bare ⟨List.cons_ne_nil _ _, fun char member => ?_⟩
      rcases marks char member with digit | mark
      · exact Lexical.not_mem_delimiters (Or.inr digit)
      · exact apart.2 char mark
  | text value =>
      show Word (Text.quoteString value).toList
      rw [Text.quoteString, String.toList_ofList]
      exact .quoted value.toList
  | boolean value => cases value <;> exact .bare (by decide)
  | nil => exact .bare (by decide)

/-- What kind of value a text stands for. -/
def kindOfSource : List Char → ValueKind
  | '"' :: _ => .string
  | 't' :: _ | 'f' :: _ => .boolean
  | 'n' :: _ => .nil
  | _ => .number

theorem kindOfSource_eq (finite : value.Finite) :
    kindOfSource value.source.toList = value.kind := by
  cases value with
  | number value =>
      obtain ⟨first, rest, shown, begins, -⟩ := Number.shape_shownText finite
      have other : first ∉ ['"', 't', 'f', 'n'] := by
        simp only [List.mem_cons, List.not_mem_nil, or_false]
        rintro (rfl | rfl | rfl | rfl) <;> revert begins <;> decide
      show kindOfSource (Number.shownText value).toList = .number
      rw [shown]
      unfold kindOfSource
      split <;> simp_all
  | text value =>
      show kindOfSource (Text.quoteString value).toList = .string
      rw [Text.quoteString, String.toList_ofList]
      rfl
  | boolean value => cases value <;> rfl
  | nil => rfl

theorem source_inj (finite : value.Finite) (finite' : value'.Finite)
    (same : value.source = value'.source) : value = value' := by
  have kind : value.kind = value'.kind := by
    rw [← kindOfSource_eq finite, same, kindOfSource_eq finite']
  cases value <;> cases value' <;> cases kind
  case number.number => exact congrArg number (Number.shownText_inj finite finite' same)
  case text.text left right =>
      have quoted : Text.quoted '"' left.toList ++ [] = Text.quoted '"' right.toList ++ [] := by
        rw [String.ofList_injective same]
      exact congrArg text (String.toList_injective (Text.quoted_append_inj quoted).1)
  case boolean.boolean left right =>
      cases left <;> cases right <;> first | rfl | exact absurd same (by decide)
  case nil.nil => rfl

theorem source_ne_name (finite : value.Finite) {name : Token} (read : name.ReadAs [.identifier]) :
    value.source ≠ name.lexeme := by
  intro same
  have reserved {word : String} (spelled : value.source = word) (some : word.toList ≠ [])
      (letters : word.toList.all Char.isAlpha = true) :
      Lexical.wordKind word = .identifier := by
    have found := Lexical.matches_letters some letters
    generalize Lexical.wordKind word = kind at found ⊢
    rw [← spelled, same] at found
    exact List.mem_singleton.mp (read.kind_eq found)
  have begins : ∃ first rest, value.source.toList = first :: rest ∧ Letter first := by
    have scanned := read.scanned
    rw [List.mem_singleton.mp read.kind, ← same] at scanned
    exact scanned.letter
  obtain ⟨first, rest, split, letter⟩ := begins
  have start := Lexical.beginning?_letter letter
  cases value with
  | number value =>
      obtain ⟨first', rest', shown, begins, -⟩ := Number.shape_shownText finite
      obtain ⟨rfl, -⟩ := List.cons.inj (shown.symm.trans split)
      rcases begins with rfl | digit
      · exact absurd start (by decide)
      · rw [Lexical.beginning?_digit digit] at start
        cases start
  | text value =>
      have quoted : Text.quoted '"' value.toList = first :: rest := by
        rw [← split]
        exact String.toList_ofList.symm
      obtain ⟨rfl, -⟩ := List.cons.inj quoted
      exact absurd start (by decide)
  | boolean value =>
      cases value with
      | true => exact absurd (reserved rfl (by decide) (by decide)) (by decide)
      | false => exact absurd (reserved rfl (by decide) (by decide)) (by decide)
  | nil => exact absurd (reserved rfl (by decide) (by decide)) (by decide)

end Value

/-! ## Expressions -/

/-- The node is one that can be scanned and shown. -/
def Expr.Plain : Expr → Prop
  | literal value _ => value.Finite
  | grouping _ => True
  | unary operator _ => operator.ReadAs Operator.prefixes
  | binary _ operator _ => operator.ReadAs Operator.binaries
  | logical _ operator _ => operator.ReadAs Operator.connectives
  | reference name | assign name _ => name.ReadAs [.identifier]

/-- An expression of such nodes. -/
def Expr.Legible (expr : Expr) : Prop := ∀ node ∈ expr.nodes, node.Plain

theorem Token.ReadAs.bare {kinds : List Kind} {token : Token} (read : token.ReadAs kinds)
    (other : ∀ kind ∈ kinds, kind ∉ [Kind.leftParen, .rightParen, .string, .number]) :
    Bare token.lexeme.toList :=
  read.scanned.bare (other _ read.kind)

namespace Expr

/-- The kinds that the head of a node can be read as; a leaf has no head. -/
def headKinds : Expr → List Kind
  | literal _ _ | reference _ => []
  | grouping _ => [.identifier]
  | unary _ _ => Operator.prefixes
  | binary _ _ _ => Operator.binaries
  | logical _ _ _ => Operator.connectives
  | assign _ _ => [.equal]

theorem legible_form {expr : Expr} (legible : expr.Legible) : expr.form.Legible := by
  induction expr with
  | literal value span => exact Value.word_source (legible _ List.mem_cons_self)
  | reference name => exact .bare ((legible _ List.mem_cons_self).bare (by decide))
  | grouping inner ih =>
      obtain ⟨-, inside⟩ := List.forall_mem_cons.mp legible
      exact ⟨by decide, ih inside, trivial⟩
  | unary operator right ih =>
      obtain ⟨read, inside⟩ := List.forall_mem_cons.mp legible
      exact ⟨read.bare (by decide), ih inside, trivial⟩
  | binary left operator right leftIh rightIh | logical left operator right leftIh rightIh =>
      obtain ⟨read, inside⟩ := List.forall_mem_cons.mp legible
      obtain ⟨first, second⟩ := List.forall_mem_append.mp inside
      exact ⟨read.bare (by decide), leftIh first, rightIh second, trivial⟩
  | assign name value ih =>
      obtain ⟨read, inside⟩ := List.forall_mem_cons.mp legible
      exact ⟨by decide, .bare (read.bare (by decide)), ih inside, trivial⟩

theorem read_head {expr : Expr} {head : String} {items : List PrefixForm} (plain : expr.Plain)
    (formed : expr.form = .node head items) :
    ∃ kind ∈ expr.headKinds, ∃ literal, Matches head.toList (.token kind literal) := by
  cases expr with
  | literal | reference => cases formed
  | grouping inner =>
      obtain ⟨rfl, -⟩ := PrefixForm.node.inj formed
      exact ⟨_, List.mem_singleton_self _, _, Lexical.matches_letters (by decide) (by decide)⟩
  | unary operator right | binary left operator right | logical left operator right =>
      obtain ⟨rfl, -⟩ := PrefixForm.node.inj formed
      exact ⟨_, Token.ReadAs.kind plain, _, Token.ReadAs.scanned plain⟩
  | assign name value =>
      obtain ⟨rfl, -⟩ := PrefixForm.node.inj formed
      have known : ("=".toList, Kind.equal) ∈ Lexical.operators := by decide
      exact ⟨_, List.mem_singleton_self _, _, .operator known⟩

theorem heads_meet {expr expr' : Expr} {head : String} {items : List PrefixForm}
    (plain : expr.Plain) (plain' : expr'.Plain) (formed : expr.form = .node head items)
    (formed' : expr'.form = .node head items) :
    ¬ List.Disjoint expr.headKinds expr'.headKinds := by
  obtain ⟨kind, member, literal, found⟩ := read_head plain formed
  obtain ⟨kind', member', literal', found'⟩ := read_head plain' formed'
  obtain ⟨rfl, -⟩ := Lexical.Reading.token.inj (found.unique found')
  exact fun disjoint => disjoint member member'

theorem headKinds_disjoint : List.Disjoint [Kind.identifier] Operator.prefixes ∧
    Operator.binaries.Disjoint Operator.connectives ∧ Operator.binaries.Disjoint [Kind.equal] ∧
      Operator.connectives.Disjoint [Kind.equal] := by
  refine ⟨?_, ?_, ?_, ?_⟩ <;> exact List.disjoint_left.mpr (by decide)

/-- The form of an expression tells the expression, wherever it stands. -/
theorem form_inj {expr expr' : Expr} (legible : expr.Legible) (legible' : expr'.Legible)
    (same : expr.form = expr'.form) : anywhere.Exprs expr expr' := by
  obtain ⟨grouped, connected, binaryEqual, logicalEqual⟩ := headKinds_disjoint
  induction expr generalizing expr' with
  | literal value span =>
      have plain := legible _ (self_mem_nodes _)
      have plain' := legible' _ (self_mem_nodes _)
      cases expr' with
      | literal value' span' =>
          obtain rfl := Value.source_inj plain plain' (PrefixForm.word.inj same)
          exact .literal value trivial
      | reference => exact absurd (PrefixForm.word.inj same) (Value.source_ne_name plain plain')
      | _ => cases same
  | reference name =>
      have plain := legible _ (self_mem_nodes _)
      have plain' := legible' _ (self_mem_nodes _)
      cases expr' with
      | literal =>
          exact absurd (PrefixForm.word.inj same).symm (Value.source_ne_name plain' plain)
      | reference => exact .reference (Token.ReadAs.alike plain plain' (PrefixForm.word.inj same))
      | _ => cases same
  | grouping inner ih =>
      obtain ⟨plain, inside⟩ := List.forall_mem_cons.mp legible
      have plain' := legible' _ (self_mem_nodes _)
      cases expr' with
      | literal | reference => cases same
      | grouping =>
          obtain ⟨-, inside'⟩ := List.forall_mem_cons.mp legible'
          obtain ⟨-, items⟩ := PrefixForm.node.inj same
          exact .grouping (ih inside inside' (List.singleton_inj.mp items))
      | unary => exact absurd grouped (heads_meet plain plain' rfl same.symm)
      | binary | logical | assign => simp [form] at same
  | unary operator right ih =>
      obtain ⟨plain, inside⟩ := List.forall_mem_cons.mp legible
      have plain' := legible' _ (self_mem_nodes _)
      cases expr' with
      | literal | reference => cases same
      | grouping => exact absurd grouped (heads_meet plain' plain rfl same)
      | unary =>
          obtain ⟨-, inside'⟩ := List.forall_mem_cons.mp legible'
          obtain ⟨heads, items⟩ := PrefixForm.node.inj same
          exact .unary (Token.ReadAs.alike plain plain' heads)
            (ih inside inside' (List.singleton_inj.mp items))
      | binary | logical | assign => simp [form] at same
  | binary left operator right leftIh rightIh =>
      obtain ⟨plain, inside⟩ := List.forall_mem_cons.mp legible
      obtain ⟨first, second⟩ := List.forall_mem_append.mp inside
      have plain' := legible' _ (self_mem_nodes _)
      cases expr' with
      | literal | reference => cases same
      | grouping | unary => simp [form] at same
      | binary =>
          obtain ⟨-, inside'⟩ := List.forall_mem_cons.mp legible'
          obtain ⟨first', second'⟩ := List.forall_mem_append.mp inside'
          obtain ⟨heads, items⟩ := PrefixForm.node.inj same
          obtain ⟨lefts, rest⟩ := List.cons.inj items
          exact .binary (leftIh first first' lefts) (Token.ReadAs.alike plain plain' heads)
            (rightIh second second' (List.singleton_inj.mp rest))
      | logical => exact absurd connected (heads_meet plain plain' rfl same.symm)
      | assign => exact absurd binaryEqual (heads_meet plain plain' rfl same.symm)
  | logical left operator right leftIh rightIh =>
      obtain ⟨plain, inside⟩ := List.forall_mem_cons.mp legible
      obtain ⟨first, second⟩ := List.forall_mem_append.mp inside
      have plain' := legible' _ (self_mem_nodes _)
      cases expr' with
      | literal | reference => cases same
      | grouping | unary => simp [form] at same
      | binary => exact absurd connected (heads_meet plain' plain rfl same)
      | logical =>
          obtain ⟨-, inside'⟩ := List.forall_mem_cons.mp legible'
          obtain ⟨first', second'⟩ := List.forall_mem_append.mp inside'
          obtain ⟨heads, items⟩ := PrefixForm.node.inj same
          obtain ⟨lefts, rest⟩ := List.cons.inj items
          exact .logical (leftIh first first' lefts) (Token.ReadAs.alike plain plain' heads)
            (rightIh second second' (List.singleton_inj.mp rest))
      | assign => exact absurd logicalEqual (heads_meet plain plain' rfl same.symm)
  | assign name value ih =>
      obtain ⟨plain, inside⟩ := List.forall_mem_cons.mp legible
      have plain' := legible' _ (self_mem_nodes _)
      cases expr' with
      | literal | reference => cases same
      | grouping | unary => simp [form] at same
      | binary => exact absurd binaryEqual (heads_meet plain' plain rfl same)
      | logical => exact absurd logicalEqual (heads_meet plain' plain rfl same)
      | assign =>
          obtain ⟨-, inside'⟩ := List.forall_mem_cons.mp legible'
          obtain ⟨-, items⟩ := PrefixForm.node.inj same
          obtain ⟨names, rest⟩ := List.cons.inj items
          exact .assign (Token.ReadAs.alike plain plain' (PrefixForm.word.inj names))
            (ih inside inside' (List.singleton_inj.mp rest))

end Expr

end TreeWalk
