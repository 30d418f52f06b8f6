/-
The words of an alternative, over token types.

A word gives each slot its type as often as the slot allows.  This is what
prediction and matching are measured against.
-/

import LiteralGrammar.Decision.Basic
import LiteralGrammar.Rule.Starving

namespace LiteralGrammar.Decision

inductive Word : List Slot → List TokenType → Prop where
  | nil : Word [] []
  | cons (slot : Slot) (count : Nat) {rest : List Slot} {word : List TokenType}
      (allowed : slot.repetition.Allows count) (later : Word rest word) :
      Word (slot :: rest) (List.replicate count slot.type ++ word)

/-- Whether some word of the slots starts with these types. -/
def Viable (slots : List Slot) (types : List TokenType) : Prop :=
  ∃ suffix, Word slots (types ++ suffix)

theorem word_nil_iff (word : List TokenType) : Word [] word ↔ word = [] := by
  constructor
  · intro given
    cases given
    rfl
  · intro same
    rw [same]
    exact Word.nil

theorem word_cons_iff (slot : Slot) (rest : List Slot) (word : List TokenType) :
    Word (slot :: rest) word ↔
      ∃ count later, slot.repetition.Allows count ∧ Word rest later ∧
        word = List.replicate count slot.type ++ later := by
  constructor
  · intro given
    cases given with
    | cons _ count allowed later => exact ⟨count, _, allowed, later, rfl⟩
  · intro ⟨count, later, allowed, laterWord, same⟩
    rw [same]
    exact Word.cons slot count allowed laterWord

theorem Word.append {left right : List Slot} {leftWord rightWord : List TokenType}
    (leftGiven : Word left leftWord) (rightGiven : Word right rightWord) :
    Word (left ++ right) (leftWord ++ rightWord) := by
  induction leftGiven with
  | nil => exact rightGiven
  | cons slot count allowed _ ih =>
      rw [List.append_assoc, List.cons_append]
      exact Word.cons slot count allowed ih

/-- The types of the slots and how often each may match. -/
def repetitions (slots : List Slot) : List (TokenType × Repetition) :=
  slots.map (fun slot => (slot.type, slot.repetition))

end LiteralGrammar.Decision
