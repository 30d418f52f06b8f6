/-
The code units that a character takes in UTF-16.

A character of the first plane is one unit; any other is a pair of surrogates,
the high one first.
-/

namespace LiteralGrammar.Text

abbrev CodeUnit := UInt16

def codeUnits (character : Char) : List CodeUnit :=
  if character.toNat < 0x10000 then [UInt16.ofNat character.toNat]
  else
    [UInt16.ofNat (0xD800 + (character.toNat - 0x10000) / 0x400),
      UInt16.ofNat (0xDC00 + (character.toNat - 0x10000) % 0x400)]

def utf16 (characters : List Char) : List CodeUnit :=
  characters.flatMap codeUnits

theorem utf16_nil : utf16 [] = [] := rfl

theorem utf16_cons (character : Char) (rest : List Char) :
    utf16 (character :: rest) = codeUnits character ++ utf16 rest :=
  List.flatMap_cons

theorem utf16_append (left right : List Char) :
    utf16 (left ++ right) = utf16 left ++ utf16 right :=
  List.flatMap_append

theorem codeUnits_of_lt {character : Char} (small : character.toNat < 0x10000) :
    codeUnits character = [UInt16.ofNat character.toNat] :=
  if_pos small

theorem codeUnits_ne_nil (character : Char) : codeUnits character ≠ [] := by
  unfold codeUnits
  split
  · exact List.cons_ne_nil _ _
  · exact List.cons_ne_nil _ _

/-! ### A text is told by its units -/

private theorem toNat_bounds (character : Char) :
    character.toNat < 0xD800 ∨ (0xDFFF < character.toNat ∧ character.toNat < 0x110000) :=
  character.valid

private theorem toNat_eq_of_unit_eq {left right : Nat}
    (same : UInt16.ofNat left = UInt16.ofNat right) : left % 0x10000 = right % 0x10000 := by
  have numbers := congrArg UInt16.toNat same
  rw [UInt16.toNat_ofNat', UInt16.toNat_ofNat'] at numbers
  exact numbers

/-- The first units of a text tell its first character: no unit of the first plane is a
surrogate. -/
theorem codeUnits_append_inj {left right : Char} {leftRest rightRest : List CodeUnit}
    (same : codeUnits left ++ leftRest = codeUnits right ++ rightRest) :
    left = right ∧ leftRest = rightRest := by
  have leftBounds := toNat_bounds left
  have rightBounds := toNat_bounds right
  unfold codeUnits at same
  split at same <;> split at same
  · obtain ⟨unit, rests⟩ := List.cons.inj same
    have number := toNat_eq_of_unit_eq unit
    exact ⟨Char.toNat_inj.mp (by omega), rests⟩
  · have number := toNat_eq_of_unit_eq (List.cons.inj same).1
    omega
  · have number := toNat_eq_of_unit_eq (List.cons.inj same).1
    omega
  · obtain ⟨high, afterHigh⟩ := List.cons.inj same
    obtain ⟨low, rests⟩ := List.cons.inj afterHigh
    have highNumber := toNat_eq_of_unit_eq high
    have lowNumber := toNat_eq_of_unit_eq low
    exact ⟨Char.toNat_inj.mp (by omega), rests⟩

theorem utf16_injective {left right : List Char} (same : utf16 left = utf16 right) :
    left = right := by
  induction left generalizing right with
  | nil =>
      cases right with
      | nil => rfl
      | cons head rest =>
          rw [utf16_cons] at same
          exact absurd (List.append_eq_nil_iff.mp same.symm).1 (codeUnits_ne_nil head)
  | cons character leftRest ih =>
      cases right with
      | nil =>
          rw [utf16_cons] at same
          exact absurd (List.append_eq_nil_iff.mp same).1 (codeUnits_ne_nil character)
      | cons other rightRest =>
          rw [utf16_cons, utf16_cons] at same
          obtain ⟨heads, rests⟩ := codeUnits_append_inj same
          rw [heads, ih rests]

end LiteralGrammar.Text
