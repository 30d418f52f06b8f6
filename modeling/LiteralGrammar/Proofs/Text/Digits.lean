/-
Induction along the digits of a numeral.

A reader of numerals takes the digits from the first to the last, while a
numeral is made from the last to the first.  The two meet where a numeral is a
shorter numeral with one digit behind it.
-/

import LiteralGrammar.Text.Numeral

namespace LiteralGrammar.Text

@[elab_as_elim]
theorem toDigits_induction {base : Nat} (large : 1 < base) {motive : Nat → List Char → Prop}
    (single : ∀ digit, digit < base → motive digit [digit.digitChar])
    (concat : ∀ value digits digit, motive value digits → digit < base →
      motive (value * base + digit) (digits ++ [digit.digitChar]))
    (value : Nat) : motive value (Nat.toDigits base value) := by
  induction value using Nat.strongRecOn with
  | ind value ih =>
      by_cases small : value < base
      · rw [Nat.toDigits_of_lt_base small]
        exact single value small
      · have least : base ≤ value := Nat.le_of_not_lt small
        have shorter : value / base < value := Nat.div_lt_self (by omega) large
        have last : value % base < base := Nat.mod_lt value (by omega)
        have whole : value / base * base + value % base = value := Nat.div_add_mod' value base
        rw [Nat.toDigits_of_base_le large least]
        have step := concat _ _ _ (ih (value / base) shorter) last
        rwa [whole] at step

end LiteralGrammar.Text
