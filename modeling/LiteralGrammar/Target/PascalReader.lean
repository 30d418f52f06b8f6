/-
How a Pascal compiler reads a string literal.

A literal is a sequence of segments, each a quoted run or a numbered character,
whose values are joined.  The reader takes one character at a time, so a quote
inside a run is doubled exactly when another follows it at once.
-/

namespace LiteralGrammar.Pascal

/-- Where the reader stands: before a segment, inside a run, after a quote that may close the
run, after a number sign, or inside a decimal code. -/
inductive ReaderState where
  | start
  | run
  | closing
  | sign
  | code (value : Nat)
  deriving DecidableEq, Repr

def digitValue? (character : Char) : Option Nat :=
  if character.isDigit then some (character.toNat - '0'.toNat) else none

def numbered? (code : Nat) : Option Char :=
  if code.isValidChar then some (Char.ofNat code) else none

def readFrom : ReaderState → List Char → Option (List Char)
  | .start, [] => some []
  | .start, character :: rest =>
      if character = '\'' then readFrom .run rest
      else if character = '#' then readFrom .sign rest
      else none
  | .run, [] => none
  | .run, character :: rest =>
      if character = '\'' then readFrom .closing rest
      else (readFrom .run rest).map (character :: ·)
  | .closing, [] => some []
  | .closing, character :: rest =>
      if character = '\'' then (readFrom .run rest).map ('\'' :: ·)
      else if character = '#' then readFrom .sign rest
      else none
  | .sign, [] => none
  | .sign, character :: rest =>
      match digitValue? character with
      | some digit => readFrom (.code digit) rest
      | none => none
  | .code value, [] => (numbered? value).map ([·])
  | .code value, character :: rest =>
      match digitValue? character with
      | some digit => readFrom (.code (value * 10 + digit)) rest
      | none =>
          match numbered? value with
          | none => none
          | some named =>
              if character = '\'' then (readFrom .run rest).map (named :: ·)
              else if character = '#' then (readFrom .sign rest).map (named :: ·)
              else none

def readLiteral (literal : String) : Option String :=
  (readFrom .start literal.toList).map String.ofList

end LiteralGrammar.Pascal
