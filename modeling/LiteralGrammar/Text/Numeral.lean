/-
Numerals of fixed width in base sixteen, and the digits they are made of.

A word of sixteen bits has one four-digit numeral in each letter case; the
reader takes digits of either case.  Numerals of free width are the ones of
the standard library and are not restated here.
-/

namespace LiteralGrammar.Text

inductive LetterCase where
  | lower
  | upper
  deriving DecidableEq, Repr

def hexDigit (letters : LetterCase) (value : Nat) : Char :=
  match letters with
  | .lower => value.digitChar
  | .upper => value.digitChar.toUpper

/-- The value of an ASCII hexadecimal digit of either case. -/
def hexValue? (digit : Char) : Option Nat :=
  if '0' ≤ digit ∧ digit ≤ '9' then some (digit.toNat - '0'.toNat)
  else if 'a' ≤ digit ∧ digit ≤ 'f' then some (digit.toNat - 'a'.toNat + 10)
  else if 'A' ≤ digit ∧ digit ≤ 'F' then some (digit.toNat - 'A'.toNat + 10)
  else none

theorem hexValue?_hexDigit (letters : LetterCase) (value : Fin 16) :
    hexValue? (hexDigit letters value.val) = some value.val := by
  revert value
  cases letters <;> decide

theorem hexValue?_lt {digit : Char} {value : Nat}
    (read : hexValue? digit = some value) : value < 16 := by
  unfold hexValue? at read
  split at read
  · rename_i decimal
    have upper : digit.toNat ≤ '9'.toNat := decimal.2
    have same := Option.some.inj read
    have nine : '9'.toNat = 57 := rfl
    have zero : '0'.toNat = 48 := rfl
    omega
  · split at read
    · rename_i lowerLetter
      have upper : digit.toNat ≤ 'f'.toNat := lowerLetter.2
      have same := Option.some.inj read
      have last : 'f'.toNat = 102 := rfl
      have first : 'a'.toNat = 97 := rfl
      omega
    · split at read
      · rename_i upperLetter
        have upper : digit.toNat ≤ 'F'.toNat := upperLetter.2
        have same := Option.some.inj read
        have last : 'F'.toNat = 70 := rfl
        have first : 'A'.toNat = 65 := rfl
        omega
      · cases read

/-- The numeral of a word, always four digits wide. -/
def hexWord (letters : LetterCase) (word : UInt16) : List Char :=
  [hexDigit letters (word.toNat / 4096 % 16), hexDigit letters (word.toNat / 256 % 16),
    hexDigit letters (word.toNat / 16 % 16), hexDigit letters (word.toNat % 16)]

def hexWord? (first second third fourth : Char) : Option Nat := do
  let a ← hexValue? first
  let b ← hexValue? second
  let c ← hexValue? third
  let d ← hexValue? fourth
  return ((a * 16 + b) * 16 + c) * 16 + d

theorem hexWord_length (letters : LetterCase) (word : UInt16) :
    (hexWord letters word).length = 4 := rfl

private theorem hexValue?_hexDigit_of_lt (letters : LetterCase) {value : Nat}
    (small : value < 16) : hexValue? (hexDigit letters value) = some value :=
  hexValue?_hexDigit letters ⟨value, small⟩

theorem hexWord?_hexWord (letters : LetterCase) (word : UInt16) :
    hexWord? (hexDigit letters (word.toNat / 4096 % 16))
      (hexDigit letters (word.toNat / 256 % 16))
      (hexDigit letters (word.toNat / 16 % 16))
      (hexDigit letters (word.toNat % 16)) = some word.toNat := by
  have bound : word.toNat < 65536 := word.toNat_lt
  unfold hexWord?
  rw [hexValue?_hexDigit_of_lt letters (Nat.mod_lt _ (by decide)),
    hexValue?_hexDigit_of_lt letters (Nat.mod_lt _ (by decide)),
    hexValue?_hexDigit_of_lt letters (Nat.mod_lt _ (by decide)),
    hexValue?_hexDigit_of_lt letters (Nat.mod_lt _ (by decide))]
  change some _ = some _
  congr 1
  omega

theorem hexWord?_lt {first second third fourth : Char} {value : Nat}
    (read : hexWord? first second third fourth = some value) : value < 65536 := by
  unfold hexWord? at read
  cases firstAt : hexValue? first with
  | none => rw [firstAt] at read; cases read
  | some a =>
      cases secondAt : hexValue? second with
      | none => rw [firstAt, secondAt] at read; cases read
      | some b =>
          cases thirdAt : hexValue? third with
          | none => rw [firstAt, secondAt, thirdAt] at read; cases read
          | some c =>
              cases fourthAt : hexValue? fourth with
              | none => rw [firstAt, secondAt, thirdAt, fourthAt] at read; cases read
              | some d =>
                  rw [firstAt, secondAt, thirdAt, fourthAt] at read
                  have same : ((a * 16 + b) * 16 + c) * 16 + d = value := Option.some.inj read
                  have := hexValue?_lt firstAt
                  have := hexValue?_lt secondAt
                  have := hexValue?_lt thirdAt
                  have := hexValue?_lt fourthAt
                  omega

end LiteralGrammar.Text
