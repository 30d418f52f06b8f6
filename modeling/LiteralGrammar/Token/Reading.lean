/-
What the tokens and the errors of an input are, said of a vocabulary alone.

The input is read from its start to its end.  Where the rest begins with a text
that literals stand for, the longest such text is a token, of the first literal
that stands for it; elsewhere one character is refused.  Places are told by the
text that was read before them.
-/

import LiteralGrammar.Token.Segmentation

namespace LiteralGrammar

/-- Whether a literal can be decoded, and to this text. -/
def Literal.Denotes (literal : String) (text : List Char) : Prop :=
  Literal.decode literal = .ok (String.ofList text)

namespace Vocabulary

/-- The longest text that literals make of the start of an input, and the type of the literal
that was the first to be defined for it. -/
structure Munch (vocabulary : Vocabulary) (input : List Char) (type : TokenType)
    (text : List Char) : Prop where
  solid : text ≠ []
  fits : text <+: input
  longest : ∀ literal ∈ vocabulary.literals, ∀ value, Literal.Denotes literal.2 value →
    value <+: input → value.length ≤ text.length
  first : ∃ earlier name later, vocabulary.literals = earlier ++ (type, name) :: later ∧
    Literal.Denotes name text ∧ ∀ other ∈ earlier, ¬Literal.Denotes other.2 text

/-- Whether no literal stands for characters that an input begins with. -/
def NoMunch (vocabulary : Vocabulary) (input : List Char) : Prop :=
  ∀ literal ∈ vocabulary.literals, ∀ value, Literal.Denotes literal.2 value →
    value <+: input → value = []

end Vocabulary

namespace Position

/-- Whether a place is that of the end of a text, by its line and its column in full. -/
structure Marks (position : Position) (text : List Char) : Prop where
  line : position.line.toNat = lineAfter text
  column : position.column.toNat = columnAfter text

/-- Whether a place comes earlier in a text: on an earlier line, or on the same line further to
the left. -/
def Before (left right : Position) : Prop :=
  left.line < right.line ∨ (left.line = right.line ∧ left.column < right.column)

theorem not_before_self (position : Position) : ¬Before position position := by
  unfold Before
  simp

theorem Before.ne {left right : Position} (before : Before left right) : left ≠ right := by
  intro same
  rw [same] at before
  exact not_before_self right before

end Position

namespace Vocabulary

/-- The tokens and the errors of what is left of an input, given the text before it.  The end of
the input is no part of either. -/
inductive Reads (vocabulary : Vocabulary) :
    List Char → List Char → List Token → List Diagnostic → Prop where
  | finished {before : List Char} : Reads vocabulary before [] [] []
  | token {before input text : List Char} {type : TokenType} {position : Position}
      {tokens : List Token} {errors : List Diagnostic}
      (munch : vocabulary.Munch input type text) (place : position.Marks before)
      (later : Reads vocabulary (before ++ text) (input.drop text.length) tokens errors) :
      Reads vocabulary before input
        ({ type := type
           text := String.ofList text
           position := position } :: tokens) errors
  | stray {before rest : List Char} {character : Char} {position : Position}
      {tokens : List Token} {errors : List Diagnostic}
      (refused : vocabulary.NoMunch (character :: rest)) (place : position.Marks before)
      (later : Reads vocabulary (before ++ [character]) rest tokens errors) :
      Reads vocabulary before (character :: rest) tokens
        (Diagnostic.noViableCharacter character position :: errors)

end Vocabulary

end LiteralGrammar
