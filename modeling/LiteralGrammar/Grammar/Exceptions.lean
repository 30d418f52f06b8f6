/-
Declaring an exception on every rule that a grammar can start from.

These are the grammar's own rules, also where a name is repeated, and the
delegated ones.  Hidden rules of imported grammars are left as they are.
-/

import LiteralGrammar.Grammar.Delegation

namespace LiteralGrammar

/-- What one declaration reached: own rules, delegated rules, and how many of either were new. -/
structure Coverage where
  rules : Nat
  delegated : Nat
  added : Nat
  deriving DecidableEq, Repr

namespace Coverage

def visited (coverage : Coverage) : Nat :=
  coverage.rules + coverage.delegated

end Coverage

namespace Grammar

/-- Counts a delegated rule, and its declaration if that is new. -/
def declaring (exception : String) : Visitor Coverage :=
  fun rule coverage =>
    let declared := rule.require exception
    (declared.2,
      { coverage with
        delegated := coverage.delegated + 1
        added := coverage.added + declared.1.toNat })

def requireException (grammar : Grammar) (exception : String) : Coverage × Grammar :=
  let own := grammar.rules.map (fun rule => rule.require exception)
  let changed := { grammar with rules := own.map Prod.snd }
  let walked := changed.visitDelegated (declaring exception)
    { rules := own.length
      delegated := 0
      added := own.countP Prod.fst }
  (walked.2, walked.1)

end Grammar

end LiteralGrammar
