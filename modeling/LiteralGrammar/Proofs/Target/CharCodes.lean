/-
Tables of character codes, written side by side and read back.

Each code starts with its mark, a backslash or a number sign, and no mark is a
digit.  So an octal code, whose digits are as many as it needs, ends where the
next one starts; it never has more than the three digits that a reader takes.
-/

import Mathlib.Data.Nat.Digits.Defs
import LiteralGrammar.Proofs.Literal.Glyphs
import LiteralGrammar.Proofs.Target.PascalReading
import LiteralGrammar.Proofs.Text.Digits
import LiteralGrammar.Target.Rendering

namespace LiteralGrammar

namespace CharCode

open Text

/-- Whether nothing follows, or an item that starts with a mark. -/
def Marked (mark : Char) (text : List Char) : Prop :=
  text = [] ∨ ∃ rest, text = mark :: rest

theorem marked_flatMap {Value : Type} {mark : Char} {written : Value → List Char}
    (starts : ∀ value, ∃ rest, written value = mark :: rest) (values : List Value) :
    Marked mark (values.flatMap written) := by
  cases values with
  | nil => exact Or.inl rfl
  | cons value later =>
      obtain ⟨rest, same⟩ := starts value
      refine Or.inr ⟨rest ++ later.flatMap written, ?_⟩
      rw [List.flatMap_cons, same, List.cons_append]

/-- Items are read one after the other when each is read in front of marked text. -/
theorem read_flatMap {Value : Type} {mark : Char} {written : Value → List Char}
    {read : List Char → Option (List Nat)} {code : Value → Nat}
    (starts : ∀ value, ∃ rest, written value = mark :: rest) (ended : read [] = some [])
    (item : ∀ value rest, Marked mark rest →
      read (written value ++ rest) = (read rest).map (code value :: ·))
    (values : List Value) : read (values.flatMap written) = some (values.map code) := by
  induction values with
  | nil => exact ended
  | cons value later ih =>
      rw [List.flatMap_cons, item value _ (marked_flatMap starts later), ih]
      rfl

/-! ### Codes of the C family -/

theorem octalValue?_digitChar {digit : Nat} (small : digit < 8) :
    octalValue? digit.digitChar = some digit := by
  have all : ∀ digit : Fin 8, octalValue? digit.val.digitChar = some digit.val := by decide
  exact all ⟨digit, small⟩

theorem digitChar_ne_unit {digit : Nat} (small : digit < 8) : digit.digitChar ≠ 'u' := by
  have all : ∀ digit : Fin 8, digit.val.digitChar ≠ 'u' := by decide
  exact all ⟨digit, small⟩

theorem readEscapes_octal_digit {digit : Nat} (small : digit < 8) (room value : Nat)
    (rest : List Char) :
    readEscapes (.octal (room + 1) value) (digit.digitChar :: rest) =
      readEscapes (.octal room (value * 8 + digit)) rest := by
  simp only [readEscapes, octalValue?_digitChar small]

/-- As many as three octal digits are taken, and the room that is left is kept. -/
theorem readEscapes_octal_digits (value : Nat) :
    (Nat.toDigits 8 value).length ≤ 3 → ∀ rest,
      readEscapes .escape (Nat.toDigits 8 value ++ rest) =
        readEscapes (.octal (3 - (Nat.toDigits 8 value).length) value) rest := by
  induction value using toDigits_induction (by decide : 1 < 8) with
  | single digit small =>
      intro _ rest
      rw [List.singleton_append, readEscapes, if_neg (digitChar_ne_unit small),
        octalValue?_digitChar small]
      rfl
  | concat value digits digit ih small =>
      intro few rest
      -- The digits before the last have left room for it, or there would be a fourth.
      rw [List.length_append, List.length_singleton] at few
      have room : 3 - digits.length = 3 - (digits.length + 1) + 1 := by omega
      rw [List.append_assoc, ih (by omega), List.singleton_append, room,
        readEscapes_octal_digit small, List.length_append, List.length_singleton]

theorem readEscapes_octal_end {text : List Char} (ends : Marked '\\' text) (room value : Nat) :
    readEscapes (.octal room value) text = (readEscapes .between text).map (value :: ·) := by
  rcases ends with rfl | ⟨rest, rfl⟩
  · rfl
  · cases room with
    | zero => rfl
    | succ later => rfl

theorem readEscapes_unit_digit {digit : Char} {digitValue : Nat}
    (read : hexValue? digit = some digitValue) (missing value : Nat) (rest : List Char) :
    readEscapes (.unit (missing + 1) value) (digit :: rest) =
      readEscapes (.unit missing (value * 16 + digitValue)) rest := by
  simp only [readEscapes, read]

theorem readEscapes_unit_last {digit : Char} {digitValue : Nat}
    (read : hexValue? digit = some digitValue) (value : Nat) (rest : List Char) :
    readEscapes (.unit 0 value) (digit :: rest) =
      (readEscapes .between rest).map ((value * 16 + digitValue) :: ·) := by
  simp only [readEscapes, read]

/-- After an escaped `u` exactly four digits are taken. -/
theorem readEscapes_unit {first second third fourth : Char} {code : Nat}
    (read : hexWord? first second third fourth = some code) (rest : List Char) :
    readEscapes .between ('\\' :: 'u' :: first :: second :: third :: fourth :: rest) =
      (readEscapes .between rest).map (code :: ·) := by
  obtain ⟨a, b, c, d, firstAt, secondAt, thirdAt, fourthAt, same⟩ := hexWord?_eq_some_iff.mp read
  rw [readEscapes, if_pos rfl, readEscapes, if_pos rfl, readEscapes_unit_digit firstAt,
    readEscapes_unit_digit secondAt, readEscapes_unit_digit thirdAt,
    readEscapes_unit_last fourthAt, Nat.zero_mul, Nat.zero_add, same]

theorem readEscapes_unitEscape (letters : LetterCase) (unit : CodeUnit) (rest : List Char) :
    readEscapes .between (CFamily.unitEscape letters unit ++ rest) =
      (readEscapes .between rest).map (unit.toNat :: ·) :=
  readEscapes_unit (hexWord?_hexWord letters unit) rest

theorem escapeChars_starts (value : UInt32) : ∃ rest, escapeChars value = '\\' :: rest := by
  unfold escapeChars
  split
  · exact ⟨_, rfl⟩
  · exact ⟨_, rfl⟩

theorem readEscapes_escapeChars (value : UInt32) {rest : List Char} (ends : Marked '\\' rest) :
    readEscapes .between (escapeChars value ++ rest) =
      (readEscapes .between rest).map (value.toNat % 2 ^ 16 :: ·) := by
  unfold escapeChars
  split
  · rename_i small
    have few : (Nat.toDigits 8 value.toNat).length ≤ 3 :=
      Nat.toDigits_length 8 value.toNat 3 (by decide) (by omega)
    rw [List.cons_append, readEscapes, if_pos rfl, readEscapes_octal_digits value.toNat few,
      readEscapes_octal_end ends, Nat.mod_eq_of_lt (by omega)]
  · rw [readEscapes_unitEscape, UInt32.toNat_toUInt16]

theorem readEscapes_flatMap (values : List UInt32) :
    readEscapes .between (values.flatMap escapeChars) =
      some (values.map (fun value => value.toNat % 2 ^ 16)) :=
  read_flatMap escapeChars_starts rfl (fun value _ => readEscapes_escapeChars value) values

/-! ### Codes of Pascal -/

theorem readNumbers_digits (value : Nat) : ∀ rest,
    readNumbers .sign (Nat.toDigits 10 value ++ rest) = readNumbers (.code value) rest := by
  induction value using toDigits_induction (by decide : 1 < 10) with
  | single digit small =>
      intro rest
      rw [List.singleton_append, readNumbers, Pascal.digitValue?_digitChar small]
  | concat value digits digit ih small =>
      intro rest
      rw [List.append_assoc, ih, List.singleton_append, readNumbers,
        Pascal.digitValue?_digitChar small]

theorem readNumbers_code_end {text : List Char} (ends : Marked '#' text) (value : Nat) :
    readNumbers (.code value) text = (readNumbers .between text).map (value :: ·) := by
  rcases ends with rfl | ⟨rest, rfl⟩
  · rfl
  · rfl

theorem readNumbers_numberChars (value : UInt32) {rest : List Char} (ends : Marked '#' rest) :
    readNumbers .between (numberChars value ++ rest) =
      (readNumbers .between rest).map (value.toNat :: ·) := by
  unfold numberChars
  rw [List.cons_append, readNumbers, if_pos rfl, readNumbers_digits, readNumbers_code_end ends]

theorem readNumbers_flatMap (values : List UInt32) :
    readNumbers .between (values.flatMap numberChars) = some (values.map UInt32.toNat) :=
  read_flatMap (fun value => ⟨Nat.toDigits 10 value.toNat, rfl⟩) rfl
    (fun value _ => readNumbers_numberChars value) values

end CharCode

namespace Target

open CharCode

/-- A table of character codes, without separators. -/
def charCodes (target : Target) (values : List UInt32) : String :=
  String.join (values.map target.charCode)

theorem toList_charCodes_of_family {target : Target} (family : target = .java ∨ target = .apex)
    (values : List UInt32) :
    (target.charCodes values).toList = values.flatMap escapeChars := by
  unfold charCodes
  rw [String.toList_join, List.flatMap_map]
  rcases family with rfl | rfl <;> simp only [charCode, String.toList_ofList]

theorem toList_charCodes_delphi (values : List UInt32) :
    (Target.delphi.charCodes values).toList = values.flatMap numberChars := by
  unfold charCodes
  rw [String.toList_join, List.flatMap_map]
  simp only [charCode, String.toList_ofList]

theorem family_or_delphi (target : Target) :
    (target = .java ∨ target = .apex) ∨ target = .delphi := by
  cases target with
  | java => exact Or.inl (Or.inl rfl)
  | apex => exact Or.inl (Or.inr rfl)
  | delphi => exact Or.inr rfl

theorem readEscapes_charCodes {target : Target} (family : target = .java ∨ target = .apex)
    (values : List UInt32) :
    readEscapes .between (target.charCodes values).toList =
      some (values.map (fun value => value.toNat % 2 ^ 16)) := by
  rw [toList_charCodes_of_family family, readEscapes_flatMap]

theorem readNumbers_charCodes (values : List UInt32) :
    readNumbers .between (Target.delphi.charCodes values).toList =
      some (values.map UInt32.toNat) := by
  rw [toList_charCodes_delphi, readNumbers_flatMap]

theorem map_mod_of_small {target : Target} {values : List UInt32}
    (small : ∀ value ∈ values, value.toNat ≤ target.maxCharCode) :
    values.map (fun value => value.toNat % 2 ^ 16) = values.map UInt32.toNat := by
  apply List.map_congr_left
  intro value member
  have bound : value.toNat ≤ 0xFFFF := small value member
  exact Nat.mod_eq_of_lt (by omega)

theorem eq_of_charCodes_eq {target : Target} {values others : List UInt32}
    (small : ∀ value ∈ values, value.toNat ≤ target.maxCharCode)
    (smallToo : ∀ value ∈ others, value.toNat ≤ target.maxCharCode)
    (same : target.charCodes values = target.charCodes others) : values = others := by
  have codes : values.map UInt32.toNat = others.map UInt32.toNat := by
    rcases target.family_or_delphi with family | rfl
    · have read := readEscapes_charCodes family values
      rw [same, readEscapes_charCodes family others, map_mod_of_small small,
        map_mod_of_small smallToo] at read
      exact (Option.some.inj read).symm
    · have read := readNumbers_charCodes values
      rw [same, readNumbers_charCodes others] at read
      exact (Option.some.inj read).symm
  exact (List.map_inj_right (fun _ _ => UInt32.toNat_inj.mp)).mp codes

/-- A table tells the codes that it was made of.  The table for Java or Apex tells the lowest
sixteen bits of each, the one for Delphi each code as a whole; so two lists of codes that generated
lexers handle never have the same table. -/
theorem charCodes_decodable (values : List UInt32) :
    (∀ target : Target, target = .java ∨ target = .apex →
      readEscapes .between (target.charCodes values).toList =
        some (values.map (fun value => value.toNat % 2 ^ 16))) ∧
    readNumbers .between (Target.delphi.charCodes values).toList =
      some (values.map UInt32.toNat) ∧
    ∀ (target : Target) (others : List UInt32),
      (∀ value ∈ values, value.toNat ≤ target.maxCharCode) →
      (∀ value ∈ others, value.toNat ≤ target.maxCharCode) →
      target.charCodes values = target.charCodes others → values = others :=
  ⟨fun _ family => readEscapes_charCodes family values, readNumbers_charCodes values,
    fun _ _ => eq_of_charCodes_eq⟩

/-- Codes of one, two and three octal digits, the first that is written in base sixteen, and one
that loses its highest bit. -/
theorem charCodes_decodable_mixed :
    Target.java.charCodes [7, 8, 127, 128, 0x10041] = "\\7\\10\\177\\u0080\\u0041" ∧
      readEscapes .between "\\7\\10\\177\\u0080\\u0041".toList =
        some [7, 8, 127, 128, 0x41] ∧
      Target.delphi.charCodes [1, 23, 0x10041] = "#1#23#65601" ∧
      readNumbers .between "#1#23#65601".toList = some [1, 23, 0x10041] ∧
      Target.apex.charCodes [1, 23] ≠ Target.apex.charCodes [12, 3] := by
  have escapes : Target.java.charCodes [7, 8, 127, 128, 0x10041] =
      "\\7\\10\\177\\u0080\\u0041" := by decide
  have numbers : Target.delphi.charCodes [1, 23, 0x10041] = "#1#23#65601" := by decide
  have family := (charCodes_decodable [7, 8, 127, 128, 0x10041]).1 .java (Or.inl rfl)
  have pascal := (charCodes_decodable [1, 23, 0x10041]).2.1
  have apart := (charCodes_decodable [1, 23]).2.2 .apex [12, 3]
    (by simp [maxCharCode]) (by simp [maxCharCode])
  rw [escapes] at family
  rw [numbers] at pascal
  exact ⟨escapes, family, numbers, pascal, fun same => absurd (apart same) (by decide)⟩

end Target

end LiteralGrammar
