/-
Matching one alternative, one test at a time.

The loop over the slots and the loop over the tokens of a slot are the steps of
one machine.  A token is read by its index; behind the end of the stream that is
the last token again.  An access that misses is a state of its own, so that it
can be proved never to be reached.
-/

import LiteralGrammar.Decision.Matching
import Mathlib.Logic.Function.Iterate

namespace LiteralGrammar

/-- What a match comes to next, or how it has ended. -/
inductive Phase where
  | before (slots : List Slot)
  | within (slot : Slot) (later : List Slot)
  | completed
  | failed (found : Token) (expected : TokenType)
  | missed
  deriving DecidableEq, Repr

/-- A match on its way, with the index of the token that it looks at. -/
structure Matcher where
  phase : Phase
  index : Nat
  deriving DecidableEq, Repr

namespace Matcher

def readAt? (tokens : List Token) (index : Nat) : Option Token :=
  tokens[min index (tokens.length - 1)]?

def start (slots : List Slot) : Matcher :=
  ⟨.before slots, 0⟩

def choose (decision : Decision) (alternative : Nat) : Matcher :=
  match decision.alternatives[alternative]? with
  | none => ⟨.missed, 0⟩
  | some slots => start slots

/-- One test.  A match that has ended stays as it is. -/
def advance (tokens : List Token) : Matcher → Matcher
  | ⟨.before [], index⟩ => ⟨.completed, index⟩
  | ⟨.before (slot :: later), index⟩ =>
      if slot.repetition.isOptional then ⟨.within slot later, index⟩
      else
        match readAt? tokens index with
        | none => ⟨.missed, index⟩
        | some current =>
            if current.type = slot.type then ⟨.within slot later, index⟩
            else ⟨.failed current slot.type, index⟩
  | ⟨.within slot later, index⟩ =>
      match readAt? tokens index with
      | none => ⟨.missed, index⟩
      | some current =>
          if current.type = slot.type then
            if slot.repetition.loops then ⟨.within slot later, index + 1⟩
            else ⟨.before later, index + 1⟩
          else ⟨.before later, index⟩
  | ended => ended

def run (tokens : List Token) (count : Nat) (matcher : Matcher) : Matcher :=
  (advance tokens)^[count] matcher

def result? : Matcher → Option MatchResult
  | ⟨.completed, index⟩ => some (.complete index)
  | ⟨.failed found expected, index⟩ => some (.mismatch index found expected)
  | _ => none

end Matcher

end LiteralGrammar
