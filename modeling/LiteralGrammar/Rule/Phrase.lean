/-
The texts that an alternative stands for, by the values of its literals.

An element contributes its value as often as it is repeated.  One that may be
left out contributes nothing whatever its literal is, even a malformed one.
-/

import LiteralGrammar.Rule.Basic

namespace LiteralGrammar

inductive Phrase : Alternative → List Char → Prop where
  | nil : Phrase [] []
  | skip (element : Element) {rest : Alternative} {text : List Char}
      (optional : element.repetition.isOptional = true) (later : Phrase rest text) :
      Phrase (element :: rest) text
  | repeated (element : Element) (value : String) (count : Nat) {rest : Alternative}
      {text : List Char} (decoded : element.value = .ok value)
      (allowed : element.repetition.Allows (count + 1)) (later : Phrase rest text) :
      Phrase (element :: rest) ((List.replicate (count + 1) value.toList).flatten ++ text)

theorem Phrase.append {left right : Alternative} {leftText rightText : List Char}
    (leftGiven : Phrase left leftText) (rightGiven : Phrase right rightText) :
    Phrase (left ++ right) (leftText ++ rightText) := by
  induction leftGiven with
  | nil => exact rightGiven
  | skip element optional _ ih => exact Phrase.skip element optional ih
  | repeated element value count decoded allowed _ ih =>
      rw [List.append_assoc, List.cons_append]
      exact Phrase.repeated element value count decoded allowed ih

end LiteralGrammar
