/-
Character codes in generated tables.

The C family writes a code below 128 in octal and any other as an escape for
its lowest sixteen bits; Pascal writes the decimal code.  Beside each form
stands the reader of a sequence of them without separators.
-/

import LiteralGrammar.Target.CFamily
import LiteralGrammar.Target.PascalReader

namespace LiteralGrammar.CharCode

open Text

def escapeChars (value : UInt32) : List Char :=
  if value.toNat ≤ 127 then '\\' :: Nat.toDigits 8 value.toNat
  else CFamily.unitEscape .lower value.toUInt16

def numberChars (value : UInt32) : List Char :=
  '#' :: Nat.toDigits 10 value.toNat

/-- Where the reader of the C family's codes stands; `room` counts the octal digits that may
still follow, and `missing` the hexadecimal digits that must follow the next. -/
inductive EscapeState where
  | between
  | escape
  | octal (room value : Nat)
  | unit (missing value : Nat)
  deriving DecidableEq, Repr

def octalValue? (character : Char) : Option Nat :=
  if '0' ≤ character ∧ character ≤ '7' then some (character.toNat - '0'.toNat) else none

def readEscapes : EscapeState → List Char → Option (List Nat)
  | .between, [] => some []
  | .between, character :: rest =>
      if character = '\\' then readEscapes .escape rest else none
  | .escape, [] => none
  | .escape, character :: rest =>
      if character = 'u' then readEscapes (.unit 3 0) rest
      else
        match octalValue? character with
        | some digit => readEscapes (.octal 2 digit) rest
        | none => none
  | .octal _ value, [] => some [value]
  | .octal room value, character :: rest =>
      match room, octalValue? character with
      | later + 1, some digit => readEscapes (.octal later (value * 8 + digit)) rest
      | _, _ =>
          if character = '\\' then (readEscapes .escape rest).map (value :: ·) else none
  | .unit _ _, [] => none
  | .unit missing value, character :: rest =>
      match hexValue? character with
      | none => none
      | some digit =>
          match missing with
          | 0 => (readEscapes .between rest).map ((value * 16 + digit) :: ·)
          | later + 1 => readEscapes (.unit later (value * 16 + digit)) rest

inductive NumberState where
  | between
  | sign
  | code (value : Nat)
  deriving DecidableEq, Repr

def readNumbers : NumberState → List Char → Option (List Nat)
  | .between, [] => some []
  | .between, character :: rest =>
      if character = '#' then readNumbers .sign rest else none
  | .sign, [] => none
  | .sign, character :: rest =>
      match Pascal.digitValue? character with
      | some digit => readNumbers (.code digit) rest
      | none => none
  | .code value, [] => some [value]
  | .code value, character :: rest =>
      match Pascal.digitValue? character with
      | some digit => readNumbers (.code (value * 10 + digit)) rest
      | none =>
          if character = '#' then (readNumbers .sign rest).map (value :: ·) else none

end LiteralGrammar.CharCode
