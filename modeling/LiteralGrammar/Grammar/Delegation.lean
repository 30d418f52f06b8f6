/-
Rules that a grammar takes over from the grammars it imports.

Imported grammars are walked depth first in the order of import.  A rule counts
when its name has not been seen before, the grammar's own names being seen from
the start.  One walk reads the rules, the other may change each of them and
carries a state along.
-/

import LiteralGrammar.Grammar.Basic

namespace LiteralGrammar

/-! ### Reading -/

/-- The rules whose names are new, in order, and all names seen after them. -/
def newRules : List Rule → List String → List Rule × List String
  | [], seen => ([], seen)
  | rule :: rest, seen =>
      if rule.name ∈ seen then newRules rest seen
      else
        let later := newRules rest (rule.name :: seen)
        (rule :: later.1, later.2)

namespace Grammar

mutual

def importedRules : Grammar → List String → List Rule × List String
  | ⟨_, _, rules, delegates, _⟩, seen =>
      let own := newRules rules seen
      let deeper := importedFromAll delegates own.2
      (own.1 ++ deeper.1, deeper.2)

def importedFromAll : List Grammar → List String → List Rule × List String
  | [], seen => ([], seen)
  | first :: rest, seen =>
      let found := importedRules first seen
      let later := importedFromAll rest found.2
      (found.1 ++ later.1, later.2)

end

/-- The imported rules that no other rule hides. -/
def delegatedRules (grammar : Grammar) : List Rule :=
  (importedFromAll grammar.delegates grammar.ruleNames).1

/-- The rule that a name stands for: the grammar's own or else a delegated one. -/
def resolveRule? (grammar : Grammar) (name : String) : Option Rule :=
  match grammar.rule? name with
  | some rule => some rule
  | none => grammar.delegatedRules.find? (fun rule => rule.name = name)

end Grammar

/-! ### Changing -/

/-- What a changing walk carries: the names seen and the visitor's own state. -/
structure Walk (State : Type) where
  seen : List String
  state : State

/-- A visitor may change the rule it is shown. -/
abbrev Visitor (State : Type) := Rule → State → Rule × State

variable {State : Type}

/-- Shows a rule to the visitor if its name is new. -/
def Walk.step (visitor : Visitor State) (rule : Rule) (walk : Walk State) :
    Rule × Walk State :=
  if rule.name ∈ walk.seen then (rule, walk)
  else
    let changed := visitor rule walk.state
    (changed.1, { seen := rule.name :: walk.seen, state := changed.2 })

def visitRules (visitor : Visitor State) : List Rule → Walk State → List Rule × Walk State
  | [], walk => ([], walk)
  | rule :: rest, walk =>
      let shown := walk.step visitor rule
      let later := visitRules visitor rest shown.2
      (shown.1 :: later.1, later.2)

namespace Grammar

mutual

def visitImported (visitor : Visitor State) : Grammar → Walk State → Grammar × Walk State
  | ⟨name, kind, rules, delegates, vocabulary⟩, walk =>
      let own := visitRules visitor rules walk
      let deeper := visitImportedAll visitor delegates own.2
      (⟨name, kind, own.1, deeper.1, vocabulary⟩, deeper.2)

def visitImportedAll (visitor : Visitor State) :
    List Grammar → Walk State → List Grammar × Walk State
  | [], walk => ([], walk)
  | first :: rest, walk =>
      let shown := visitImported visitor first walk
      let later := visitImportedAll visitor rest shown.2
      (shown.1 :: later.1, later.2)

end

/-- Shows every delegated rule to the visitor, in the order in which `delegatedRules` lists
them. -/
def visitDelegated (visitor : Visitor State) (grammar : Grammar) (state : State) :
    Grammar × State :=
  let walked := visitImportedAll visitor grammar.delegates
    { seen := grammar.ruleNames, state := state }
  ({ grammar with delegates := walked.1 }, walked.2.state)

end Grammar

end LiteralGrammar
