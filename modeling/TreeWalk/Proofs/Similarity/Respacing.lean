import TreeWalk.Proofs.Scanning.Joining
import TreeWalk.Proofs.Similarity.Trees

/-!
# Tokens survive another spacing

A lexeme ends by itself where a space follows: whatever stood around it, in front of a space it is
the longest match again and has the reading that it had.  So the tokens of a text can be written
with one space between each two of them, and this text is scanned into the same tokens.
-/

set_option autoImplicit false

namespace TreeWalk

namespace Lexical

open Scanner (Item)

/-! ## Lexemes in front of a space -/

def Separated (more : List Char) : Prop := more = [] ∨ ∃ rest, more = ' ' :: rest

/-- The lexeme of a token is the longest match if it stands apart from what follows. -/
theorem Matches.longest_separated {piece more : List Char} {kind : Kind}
    {literal : Option Literal} (found : Matches piece (.token kind literal))
    (apart : Separated more) : Longest (piece ++ more) piece (.token kind literal) := by
  refine ⟨List.prefix_append _ _, found, ?_⟩
  intro other another front again
  rcases List.prefix_or_prefix_of_prefix front (List.prefix_append piece more) with
    inside | ⟨behind, rfl⟩
  · exact inside.length_le
  -- a longer match would hold the space, as only strings and comments do
  rcases behind with - | ⟨char, behind⟩
  · simp
  have more_front := (List.prefix_append_right_inj piece).mp front
  rcases apart with rfl | ⟨rest, rfl⟩
  · cases List.prefix_nil.mp more_front
  obtain ⟨rfl, -⟩ := List.cons_prefix_cons.mp more_front
  cases piece with
  | nil => exact absurd found not_matches_nil
  | cons first inner =>
      have space : ' ' ∈ inner ++ ' ' :: behind := List.mem_append_right _ List.mem_cons_self
      rcases again.of_blank_inside (by decide) space with rfl | ⟨rfl, body, slashes, -⟩
      · -- the string that the piece is has closed before the space
        obtain ⟨body, rfl, closed, -⟩ := found.explains
        have string : Longest ('"' :: (body ++ '"' :: ' ' :: rest)) ('"' :: (body ++ ['"'])) _ :=
          longest_string closed
        have text :
            '"' :: (body ++ ['"']) ++ ' ' :: rest = '"' :: (body ++ '"' :: ' ' :: rest) := by
          simp
        rw [text] at front
        exact string.longest _ another front again
      · cases inner with
        | nil => cases slashes
        | cons second inner =>
            obtain ⟨rfl, -⟩ := List.cons.inj slashes
            rcases found.explains with ⟨_, known, -⟩ | ⟨-, _, -, -, dropped⟩
            · exact absurd rfl (operators_second _ known)
            · cases dropped

/-! ## The tokens of a text -/

theorem Tokenizes.matches_lexeme {place : Place} {text : List Char} {items : List Item}
    (tokenizes : Tokenizes place text items) {token : Token} (member : .ok token ∈ items) :
    token.kind = .eof ∨ Matches token.lexeme.toList (.token token.kind token.literal) := by
  induction tokenizes with
  | ending =>
      obtain rfl := Except.ok.inj (List.mem_singleton.mp member)
      exact Or.inl rfl
  | dropped _ _ ih => exact ih member
  | token longest _ ih =>
      rcases List.mem_cons.mp member with same | member
      · obtain rfl := Except.ok.inj same
        rw [String.toList_ofList]
        exact Or.inr longest.found
      · exact ih member
  | unterminated _ _ ih =>
      rcases List.mem_cons.mp member with same | member
      · cases same
      · exact ih member
  | unexpected _ _ _ ih =>
      rcases List.mem_cons.mp member with same | member
      · cases same
      · exact ih member

def spaced (tokens : List Token) : String := " ".intercalate (tokens.map Token.lexeme)

theorem tokenizes_spaced {tokens : List Token}
    (known : ∀ token ∈ tokens, Matches token.lexeme.toList (.token token.kind token.literal))
    (place : Place) :
    ∃ (again : List Token) (last : Place), again.map Token.unplaced = tokens.map Token.unplaced ∧
      Tokenizes place (spaced tokens).toList
        (again.map .ok ++ [.ok (Token.ending last.line last.offset)]) := by
  induction tokens generalizing place with
  | nil => exact ⟨[], place, rfl, .ending⟩
  | cons token rest ih =>
      obtain ⟨found, others⟩ := List.forall_mem_cons.mp known
      generalize lexeme : token.lexeme.toList = piece at found
      have same : String.ofList piece = token.lexeme := by rw [← lexeme, String.ofList_toList]
      obtain ⟨more, apart, text, again, last, alike, behind⟩ : ∃ more, Separated more ∧
          (spaced (token :: rest)).toList = piece ++ more ∧
          ∃ (again : List Token) (last : Place),
            again.map Token.unplaced = rest.map Token.unplaced ∧ Tokenizes (place.behind piece)
              more (again.map .ok ++ [.ok (Token.ending last.line last.offset)]) := by
        cases rest with
        | nil => exact ⟨[], Or.inl rfl, by simp [spaced, lexeme], [], _, rfl, .ending⟩
        | cons next rest =>
            obtain ⟨again, last, alike, behind⟩ := ih others ((place.behind piece).behind [' '])
            refine ⟨' ' :: (spaced (next :: rest)).toList, Or.inr ⟨_, rfl⟩, ?_, again, last, alike,
              ?_⟩
            · simp [spaced, lexeme]
            · exact .dropped (longest_blank (by decide) _) behind
      have longest := found.longest_separated apart
      refine ⟨⟨token.kind, String.ofList piece, token.literal, place.line, place.span piece⟩ ::
        again, last, ?_, ?_⟩
      · rw [List.map_cons, List.map_cons, alike, same]
        rfl
      · rw [text]
        refine .token longest ?_
        rwa [List.drop_left]

end Lexical

theorem Scan.ofItems_map_ok (tokens : List Token) : ofItems (tokens.map .ok) = ⟨tokens, []⟩ := by
  induction tokens with
  | nil => rfl
  | cons token rest ih =>
      obtain ⟨same, none⟩ := Scan.mk.inj ih
      exact congrArg₂ Scan.mk (congrArg (token :: ·) same) none

theorem Scan.matches_lexeme {source : String} {token : Token}
    (member : token ∈ (ofSource source).tokens) :
    token.kind = .eof ∨ Lexical.Matches token.lexeme.toList (.token token.kind token.literal) :=
  (Lexical.tokenizes_ofSource source).matches_lexeme (Scanner.mem_tokens.mp member)

/-- The text of the tokens with a space between each two of them, without the end token. -/
def Scan.respaced (scan : Scan) : String :=
  Lexical.spaced (scan.tokens.filter fun token => !token.isEnd)

/-- Whatever a text holds besides its tokens, if these are written with spaces between them they are
scanned again, each with its kind, its lexeme and its literal, and there is no mistake. -/
theorem Scan.ofSource_respaced (source : String) :
    (ofSource (ofSource source).respaced).errors = [] ∧
      (ofSource (ofSource source).respaced).tokens.map Token.unplaced =
        (ofSource source).tokens.map Token.unplaced := by
  obtain ⟨front, tokens, inner⟩ := Scanner.tokens_ending source
  have known : ∀ token ∈ front,
      Lexical.Matches token.lexeme.toList (.token token.kind token.literal) :=
    fun token member => (Scan.matches_lexeme (tokens ▸ List.mem_append_left _ member)).resolve_left
      (inner token member)
  have text : (ofSource source).respaced = Lexical.spaced front := by
    have kept : front.filter (fun token => !token.isEnd) = front := by
      refine List.filter_eq_self.mpr fun token member => ?_
      simpa [Token.isEnd] using inner token member
    rw [respaced, tokens, List.filter_append, kept]
    exact congrArg Lexical.spaced (List.append_nil front)
  obtain ⟨again, last, alike, tokenizes⟩ := Lexical.tokenizes_spaced known ⟨0, 1⟩
  have items := tokenizes.unique (Lexical.tokenizes_ofSource (Lexical.spaced front))
  rw [text, ofSource, ← items, ofItems_append, ofItems_map_ok, tokens]
  refine ⟨rfl, ?_⟩
  rw [List.map_append, List.map_append, alike]
  rfl

example : (Scan.ofSource "x/ /=é1.\"//\"").respaced = "x / / = 1 . \"//\"" := by decide +kernel

end TreeWalk
