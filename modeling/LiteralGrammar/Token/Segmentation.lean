/-
What it means to cut an input into pieces by the longest literal.

The description speaks of all literals at once and of places by counting line
breaks; it neither folds over the literals nor steps through the input.
-/

import LiteralGrammar.Token.Lexer

namespace LiteralGrammar

namespace Lexer

/-- A literal that the input starts with, such that none of the others is longer and none of
those defined earlier has the same value. -/
def Longest (lexer : Lexer) (input : List Char) (type : TokenType) (text : List Char) : Prop :=
  ∃ earlier later, lexer.literals = earlier ++ (type, text) :: later ∧
    text <+: input ∧
    (∀ other ∈ lexer.literals, other.2 <+: input → other.2.length ≤ text.length) ∧
    ∀ other ∈ earlier, other.2 ≠ text

inductive Segments (lexer : Lexer) : List Char → List Piece → Prop where
  | nil : Segments lexer [] []
  | token {type : TokenType} {text rest : List Char} {pieces : List Piece}
      (longest : lexer.Longest (text ++ rest) type text) (later : Segments lexer rest pieces) :
      Segments lexer (text ++ rest) (.token type text :: pieces)
  | stray {character : Char} {rest : List Char} {pieces : List Piece}
      (none : ∀ literal ∈ lexer.literals, ¬literal.2 <+: character :: rest)
      (later : Segments lexer rest pieces) :
      Segments lexer (character :: rest) (.stray character :: pieces)

theorem Segments.texts {lexer : Lexer} {input : List Char} {pieces : List Piece}
    (cut : lexer.Segments input pieces) : pieces.flatMap Piece.text = input := by
  induction cut with
  | nil => rfl
  | token longest _ ih =>
      rw [List.flatMap_cons, ih]
      rfl
  | stray none _ ih =>
      rw [List.flatMap_cons, ih]
      rfl

end Lexer

namespace Position

/-- The number of the line that the end of a text is on. -/
def lineAfter (text : List Char) : Nat :=
  1 + text.count '\n'

/-- How many characters follow the last line break of a text. -/
def columnAfter (text : List Char) : Nat :=
  (text.reverse.takeWhile (fun character => character ≠ '\n')).length

/-- The place after some text, as far as words of 32 bits can tell. -/
def counted (text : List Char) : Position :=
  { line := UInt32.ofNat (lineAfter text)
    column := UInt32.ofNat (columnAfter text) }

theorem counted_nil : counted [] = start := rfl

theorem counted_concat (text : List Char) (character : Char) :
    counted (text ++ [character]) = (counted text).next character := by
  unfold counted next lineAfter columnAfter
  by_cases lineBreak : character = '\n'
  · subst character
    rw [if_pos rfl, List.count_append, List.reverse_append, ← Nat.add_assoc, UInt32.ofNat_add]
    rfl
  · rw [if_neg lineBreak, List.count_append, List.reverse_append]
    simp [lineBreak, UInt32.ofNat_add]

end Position

end LiteralGrammar
