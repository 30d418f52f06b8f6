/-
How a compiler of the C family reads a string literal.

The reader yields the code units of the string.  It knows eight escapes of one
character and the escape for a code unit, and refuses any other use of the
backslash and any quote that is not escaped.  It does not know how a literal
came to be written.
-/

import LiteralGrammar.Text.Numeral
import LiteralGrammar.Text.Utf16

namespace LiteralGrammar.CFamily

open Text

/-- The character named by a letter or mark after the backslash. -/
def escapeValue? (character : Char) : Option Char :=
  if character = 'n' then some '\n'
  else if character = 'r' then some '\r'
  else if character = 't' then some '\t'
  else if character = 'b' then some '\x08'
  else if character = 'f' then some '\x0c'
  else if character = '\\' ∨ character = '\'' ∨ character = '"' then some character
  else none

/-- Where the reader stands: between items, after a backslash, or inside the digits of a
code unit with the value of those read so far. -/
inductive ReaderState where
  | between
  | escape
  | unit (missing value : Nat)
  deriving DecidableEq, Repr

def readBody (quote : Char) : ReaderState → List Char → Option (List CodeUnit)
  | .between, [] => some []
  | .between, character :: rest =>
      if character = '\\' then readBody quote .escape rest
      else if character = quote then none
      else (readBody quote .between rest).map (codeUnits character ++ ·)
  | .escape, [] => none
  | .escape, character :: rest =>
      if character = 'u' then readBody quote (.unit 3 0) rest
      else
        match escapeValue? character with
        | some value => (readBody quote .between rest).map (codeUnits value ++ ·)
        | none => none
  | .unit _ _, [] => none
  | .unit missing value, digit :: rest =>
      match hexValue? digit with
      | none => none
      | some digitValue =>
          match missing with
          | 0 =>
              (readBody quote .between rest).map
                (UInt16.ofNat (value * 16 + digitValue) :: ·)
          | later + 1 => readBody quote (.unit later (value * 16 + digitValue)) rest

/-- What follows a string literal, for a reader that stands behind its opening quote and looks for
nothing but the end: it passes over whatever a backslash takes. -/
def afterLiteral? (quote : Char) : List Char → Option (List Char)
  | [] => none
  | [last] => if last = quote then some [] else none
  | head :: taken :: rest =>
      if head = quote then some (taken :: rest)
      else if head = '\\' then afterLiteral? quote rest
      else afterLiteral? quote (taken :: rest)

def strip? (quote : Char) : List Char → Option (List Char)
  | [] => none
  | first :: rest =>
      if first = quote ∧ rest.getLast? = some quote then some rest.dropLast else none

/-- The code units of a string literal that ends at `quote`. -/
def readLiteral (quote : Char) (literal : String) : Option (List CodeUnit) :=
  (strip? quote literal.toList).bind (readBody quote .between)

end LiteralGrammar.CFamily
