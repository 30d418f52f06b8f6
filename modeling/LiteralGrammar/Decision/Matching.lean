/-
Matching one alternative against the tokens, slot by slot.

Matching is greedy: a slot that loops takes every token of its type before the
next slot is looked at, and nothing is given back.  The token that marks the end
is read again however often it is asked for, so a slot that loops on its type
would take it for ever.
-/

import LiteralGrammar.Decision.Basic

namespace LiteralGrammar

inductive MatchResult where
  | complete (consumed : Nat)
  | mismatch (index : Nat) (found : Token) (expected : TokenType)
  | endless
  deriving DecidableEq, Repr

namespace Decision

/-- Matches slots against the tokens that are left, where `index` tokens lie behind. -/
def matchFrom (last : Token) : List Slot → Nat → List Token → MatchResult
  | [], index, _ => .complete index
  | slot :: later, index, rest =>
      let current := rest.head?.getD last
      if !slot.repetition.isOptional && current.type ≠ slot.type then
        .mismatch index current slot.type
      else if slot.repetition.loops then
        let taken := rest.takeWhile (fun token => token.type = slot.type)
        let left := rest.drop taken.length
        if left.isEmpty && last.type = slot.type then .endless
        else matchFrom last later (index + taken.length) left
      else matchFrom last later (index + 1) (rest.drop 1)

def matchSlots (slots : List Slot) (stream : TokenStream) : MatchResult :=
  matchFrom stream.last slots 0 stream.body

end Decision

end LiteralGrammar
