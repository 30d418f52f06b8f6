/-
Rules of a grammar, and how they are written in grammar notation.

A draft names the literals of a rule without having looked at them; building a
rule from it checks every literal in order and fails on the first that lacks
its delimiters.
-/

import LiteralGrammar.Rule.Element
import LiteralGrammar.Rule.Exceptions

namespace LiteralGrammar

abbrev Alternative := List Element

namespace Alternative

def spelling (alternative : Alternative) : List Char :=
  List.intercalate [' '] (alternative.map Element.spelling)

def display (alternative : Alternative) : String :=
  String.ofList alternative.spelling

/-- The alternative as it follows a colon or a bar. -/
def spaced (alternative : Alternative) : List Char :=
  if alternative.isEmpty then [] else ' ' :: alternative.spelling

end Alternative

structure Rule where
  name : String
  alternatives : List Alternative
  exceptions : ExceptionSet
  deriving DecidableEq

namespace Rule

def elements (rule : Rule) : List Element :=
  rule.alternatives.flatten

def spelling (rule : Rule) : List Char :=
  rule.name.toList ++ [' ', ':'] ++
    List.intercalate [' ', '|'] (rule.alternatives.map Alternative.spaced) ++ [' ', ';']

def display (rule : Rule) : String :=
  String.ofList rule.spelling

/-- Declares an exception; also answers whether it is new. -/
def require (rule : Rule) (exception : String) : Bool × Rule :=
  let declared := rule.exceptions.require exception
  (declared.1, { rule with exceptions := declared.2 })

theorem require_name (rule : Rule) (exception : String) :
    (rule.require exception).2.name = rule.name := rfl

theorem require_alternatives (rule : Rule) (exception : String) :
    (rule.require exception).2.alternatives = rule.alternatives := rfl

theorem require_exceptions (rule : Rule) (exception : String) :
    (rule.require exception).2.exceptions = rule.exceptions.insert exception :=
  rule.exceptions.require_snd exception

end Rule

structure RuleDraft where
  name : String
  alternatives : List (List (String × Repetition))
  exceptions : List String
  deriving DecidableEq, Repr

namespace RuleDraft

def buildAlternative (elements : List (String × Repetition)) : Except Fault Alternative :=
  elements.mapM (fun element => Element.ofLiteral element.1 element.2)

def build (draft : RuleDraft) : Except Fault Rule := do
  let alternatives ← draft.alternatives.mapM buildAlternative
  return { name := draft.name
           alternatives := alternatives
           exceptions := ExceptionSet.ofNames draft.exceptions }

end RuleDraft

end LiteralGrammar
