/-
Cutting an input into tokens.

At each place the longest literal that the rest of the input starts with is
taken, and of two literals with one value the one that was defined first.  A
character at which no literal starts is a stray piece; it is reported and the
input goes on after it.  Pieces are cut first and given their places afterwards.
-/

import LiteralGrammar.Diagnostic
import LiteralGrammar.Vocabulary.Basic

namespace LiteralGrammar

inductive Piece where
  | token (type : TokenType) (text : List Char)
  | stray (character : Char)
  deriving DecidableEq, Repr

namespace Piece

def text : Piece → List Char
  | token _ text => text
  | stray character => [character]

end Piece

/-- A lexer knows the values of literals, in the order of their definition. -/
structure Lexer where
  literals : List (TokenType × List Char)
  deriving DecidableEq, Repr

structure Scan where
  stream : TokenStream
  diagnostics : List Diagnostic
  deriving DecidableEq, Repr

namespace Lexer

def decodeLiterals : List (TokenType × String) → Except Fault (List (TokenType × List Char))
  | [] => .ok []
  | literal :: rest => do
      let value ← Literal.decode literal.2
      let later ← decodeLiterals rest
      return (literal.1, value.toList) :: later

/-- The lexer for the literals of a vocabulary; those without characters are left out. -/
def ofVocabulary (vocabulary : Vocabulary) : Except Fault Lexer := do
  let decoded ← decodeLiterals vocabulary.literals
  return { literals := decoded.filter (fun literal => !literal.2.isEmpty) }

/-- Keeps a match unless the candidate is one that is longer. -/
def prefer (input : List Char) (best : Option (TokenType × List Char))
    (candidate : TokenType × List Char) : Option (TokenType × List Char) :=
  if candidate.2.isPrefixOf input then
    match best with
    | none => some candidate
    | some kept => if kept.2.length < candidate.2.length then some candidate else some kept
  else best

def longestMatch? (lexer : Lexer) (input : List Char) : Option (TokenType × List Char) :=
  lexer.literals.foldl (prefer input) none

def piecesAfter (lexer : Lexer) : Nat → List Char → List Piece
  | _, [] => []
  | skipped + 1, _ :: rest => lexer.piecesAfter skipped rest
  | 0, head :: rest =>
      match lexer.longestMatch? (head :: rest) with
      | some (type, text) => .token type text :: lexer.piecesAfter (text.length - 1) rest
      | none => .stray head :: lexer.piecesAfter 0 rest

def pieces (lexer : Lexer) (input : List Char) : List Piece :=
  lexer.piecesAfter 0 input

theorem piecesAfter_eq (lexer : Lexer) (skipped : Nat) (input : List Char) :
    lexer.piecesAfter skipped input = lexer.pieces (input.drop skipped) := by
  induction skipped generalizing input with
  | zero => rfl
  | succ skipped ih =>
      cases input with
      | nil => rfl
      | cons head rest => exact ih rest

theorem pieces_token {lexer : Lexer} {head : Char} {rest text : List Char} {type : TokenType}
    (found : lexer.longestMatch? (head :: rest) = some (type, text)) :
    lexer.pieces (head :: rest) =
      .token type text :: lexer.pieces (rest.drop (text.length - 1)) := by
  rw [← piecesAfter_eq]
  unfold pieces
  rw [piecesAfter, found]

theorem pieces_stray {lexer : Lexer} {head : Char} {rest : List Char}
    (missing : lexer.longestMatch? (head :: rest) = none) :
    lexer.pieces (head :: rest) = .stray head :: lexer.pieces rest := by
  unfold pieces
  rw [piecesAfter, missing]

/-- Gives each piece its place; the end of the input comes last. -/
def locate : Position → List Piece → Scan
  | position, [] =>
      { stream := { body := [], last := Token.endOfInput position }
        diagnostics := [] }
  | position, piece :: rest =>
      let later := locate (position.advance piece.text) rest
      match piece with
      | .token type text =>
          let token : Token :=
            { type := type
              text := String.ofList text
              position := position }
          { later with stream := { later.stream with body := token :: later.stream.body } }
      | .stray character =>
          { later with
            diagnostics :=
              Diagnostic.noViableCharacter character position :: later.diagnostics }

def tokenize (lexer : Lexer) (input : String) : Scan :=
  locate Position.start (lexer.pieces input.toList)

end Lexer

end LiteralGrammar
