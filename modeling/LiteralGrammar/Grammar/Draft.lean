/-
Building a grammar from a draft.

The literals of the grammar's own rules are checked first, in order; the
imported grammars are built after them.  The vocabulary of the result defines
the declared tokens, then the literals of the rules, then whatever the imported
grammars define.
-/

import LiteralGrammar.Grammar.Basic

namespace LiteralGrammar

structure GrammarDraft where
  name : String
  kind : GrammarKind
  tokens : List String
  rules : List RuleDraft
  delegates : List GrammarDraft

namespace GrammarDraft

def buildRules : List RuleDraft → Except Fault (List Rule)
  | [] => .ok []
  | draft :: rest => do
      let rule ← draft.build
      let later ← buildRules rest
      return rule :: later

def literalNames (rules : List Rule) : List String :=
  rules.flatMap (fun rule => rule.elements.map Element.literal)

/-- Every name that a grammar with these parts defines, in order and with repetitions. -/
def definedNames (tokens : List String) (rules : List Rule) (delegates : List Grammar) :
    List String :=
  tokens ++ literalNames rules ++ delegates.flatMap (fun delegate => delegate.vocabulary.names)

mutual

def build : GrammarDraft → Except Fault Grammar
  | ⟨name, kind, tokens, ruleDrafts, delegateDrafts⟩ => do
      let rules ← buildRules ruleDrafts
      let delegates ← buildAll delegateDrafts
      let vocabulary ← Vocabulary.ofNames (definedNames tokens rules delegates)
      return ⟨name, kind, rules, delegates, vocabulary⟩

def buildAll : List GrammarDraft → Except Fault (List Grammar)
  | [] => .ok []
  | first :: rest => do
      let grammar ← build first
      let later ← buildAll rest
      return grammar :: later

end

end GrammarDraft

end LiteralGrammar
