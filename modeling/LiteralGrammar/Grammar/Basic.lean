/-
Grammars together with the grammars that they import.

Imported grammars form a tree.  A grammar's own rules may be changed in place;
its vocabulary does not follow such a change.
-/

import LiteralGrammar.Grammar.Kind
import LiteralGrammar.Rule.Basic
import LiteralGrammar.Vocabulary.Basic

namespace LiteralGrammar

structure Grammar where
  name : String
  kind : GrammarKind
  rules : List Rule
  delegates : List Grammar
  vocabulary : Vocabulary

namespace Grammar

mutual

def decideEq : (left right : Grammar) → Decidable (left = right)
  | ⟨leftName, leftKind, leftRules, leftDelegates, leftVocabulary⟩,
    ⟨rightName, rightKind, rightRules, rightDelegates, rightVocabulary⟩ =>
      match decEq (leftName, leftKind, leftRules, leftVocabulary)
          (rightName, rightKind, rightRules, rightVocabulary),
        decideAllEq leftDelegates rightDelegates with
      | isTrue fields, isTrue delegates => isTrue (by cases fields; cases delegates; rfl)
      | isFalse different, _ => isFalse (by intro same; cases same; exact different rfl)
      | _, isFalse different => isFalse (by intro same; cases same; exact different rfl)

def decideAllEq : (left right : List Grammar) → Decidable (left = right)
  | [], [] => isTrue rfl
  | [], _ :: _ => isFalse (by intro same; cases same)
  | _ :: _, [] => isFalse (by intro same; cases same)
  | leftHead :: leftRest, rightHead :: rightRest =>
      match decideEq leftHead rightHead, decideAllEq leftRest rightRest with
      | isTrue heads, isTrue rests => isTrue (by rw [heads, rests])
      | isFalse different, _ => isFalse (by intro same; cases same; exact different rfl)
      | _, isFalse different => isFalse (by intro same; cases same; exact different rfl)

end

instance : DecidableEq Grammar :=
  decideEq

def rule? (grammar : Grammar) (name : String) : Option Rule :=
  grammar.rules.find? (fun rule => rule.name = name)

def ruleNames (grammar : Grammar) : List String :=
  grammar.rules.map Rule.name

def replaceRule (grammar : Grammar) (index : Nat) (rule : Rule) : Grammar :=
  { grammar with rules := grammar.rules.set index rule }

/-- Exchanges two of the grammar's own rules; nothing happens where one is missing. -/
def swapRules (grammar : Grammar) (first second : Nat) : Grammar :=
  match grammar.rules[first]?, grammar.rules[second]? with
  | some firstRule, some secondRule =>
      { grammar with rules := (grammar.rules.set first secondRule).set second firstRule }
  | _, _ => grammar

/-- Declares an exception on one of the grammar's own rules, if there is one at this place;
also answers whether it is new. -/
def requireAt? (grammar : Grammar) (index : Nat) (exception : String) :
    Option (Bool × Grammar) :=
  (grammar.rules[index]?).map (fun rule =>
    let declared := rule.require exception
    (declared.1, grammar.replaceRule index declared.2))

end Grammar

end LiteralGrammar
