/-
The ways in which a character can be written in a literal.

This describes literals from the writer's side: a character as itself, by a
letter, behind a backslash, or by its code.  It does not mention glyphs, so
decoding can be measured against it.
-/

import LiteralGrammar.Text.Numeral

namespace LiteralGrammar.Literal

def namedCharacters : List (Char × Char) :=
  [('n', '\n'), ('r', '\r'), ('t', '\t'), ('b', '\x08'), ('f', '\x0c')]

/-- Letters that do not stand for themselves after the backslash. -/
def reservedLetters : List Char :=
  ['n', 'r', 't', 'b', 'f', 'u']

inductive Spells (character : Char) : List Char → Prop where
  | itself (ordinary : character ≠ '\\') : Spells character [character]
  | named (letter : Char) (known : (letter, character) ∈ namedCharacters) :
      Spells character ['\\', letter]
  | escaped (free : character ∉ reservedLetters) : Spells character ['\\', character]
  | coded (first second third fourth : Char)
      (value : Text.hexWord? first second third fourth = some character.toNat) :
      Spells character ['\\', 'u', first, second, third, fourth]

/-- A text, and its characters written one after the other. -/
inductive SpellsAll : List Char → List Char → Prop where
  | nil : SpellsAll [] []
  | cons {character : Char} {written : List Char} {rest later : List Char}
      (head : Spells character written) (tail : SpellsAll rest later) :
      SpellsAll (character :: rest) (written ++ later)

/-- Whether a text starts with four hexadecimal digits that name a scalar value. -/
def OpensWithCode (text : List Char) : Prop :=
  ∃ first second third fourth rest code, text = first :: second :: third :: fourth :: rest ∧
    Text.hexWord? first second third fourth = some code ∧ code.isValidChar

theorem Spells.ne_nil {character : Char} {written : List Char}
    (spelled : Spells character written) : written ≠ [] := by
  cases spelled with
  | itself ordinary => exact List.cons_ne_nil _ _
  | named letter known => exact List.cons_ne_nil _ _
  | escaped free => exact List.cons_ne_nil _ _
  | coded first second third fourth value => exact List.cons_ne_nil _ _

theorem spells_exists (character : Char) : ∃ written, Spells character written := by
  by_cases backslash : character = '\\'
  · refine ⟨['\\', character], Spells.escaped ?_⟩
    rw [backslash]
    decide
  · exact ⟨[character], Spells.itself backslash⟩

end LiteralGrammar.Literal
