/-
What preparing a grammar leaves as it was.

Preparations declare exceptions on rules: on one of a grammar's own, on all that
it can start from, or on those that a walk over the imported grammars shows.
A bare grammar has forgotten the exceptions of every rule in its tree and
nothing else.  No preparation changes the bare grammar, so whatever is read off
it can be read before a preparation as well as after: the vocabulary, and the
alternatives of the rule that a name stands for.
-/

import LiteralGrammar.Proofs.Grammar.Resolution
import LiteralGrammar.Session
import Mathlib.Logic.Relation

namespace LiteralGrammar

namespace Rule

def bare (rule : Rule) : Rule :=
  { rule with exceptions := ExceptionSet.empty }

def requireAll (rule : Rule) (exceptions : List String) : Rule :=
  exceptions.foldl (fun declared exception => (declared.require exception).2) rule

theorem bare_require (rule : Rule) (exception : String) :
    (rule.require exception).2.bare = rule.bare := rfl

theorem bare_requireAll (rule : Rule) (exceptions : List String) :
    (rule.requireAll exceptions).bare = rule.bare := by
  unfold requireAll
  induction exceptions generalizing rule with
  | nil => rfl
  | cons exception rest ih =>
      exact (ih (rule.require exception).2).trans (rule.bare_require exception)

end Rule

namespace Grammar

mutual

def bare : Grammar → Grammar
  | ⟨name, kind, rules, delegates, vocabulary⟩ =>
      ⟨name, kind, rules.map Rule.bare, bareAll delegates, vocabulary⟩

def bareAll : List Grammar → List Grammar
  | [] => []
  | first :: rest => bare first :: bareAll rest

end

theorem bareAll_eq_map (grammars : List Grammar) : bareAll grammars = grammars.map bare := by
  induction grammars with
  | nil => rfl
  | cons first rest ih => rw [bareAll, ih, List.map_cons]

theorem bare_eq (grammar : Grammar) :
    grammar.bare =
      { grammar with
        rules := grammar.rules.map Rule.bare
        delegates := grammar.delegates.map bare } := by
  cases grammar with
  | mk name kind rules delegates vocabulary => rw [bare, bareAll_eq_map]

/-! ### What is read off a bare grammar -/

theorem vocabulary_bare (grammar : Grammar) : grammar.bare.vocabulary = grammar.vocabulary := by
  rw [bare_eq]

mutual

theorem flatten_bare : (grammar : Grammar) →
    grammar.bare.flatten = grammar.flatten.map Rule.bare
  | ⟨_, _, rules, delegates, _⟩ => by
      rw [bare, flatten, flatten, List.map_append, flattenAll_bareAll delegates]

theorem flattenAll_bareAll : (grammars : List Grammar) →
    flattenAll (bareAll grammars) = (flattenAll grammars).map Rule.bare
  | [] => rfl
  | first :: rest => by
      rw [bareAll, flattenAll, flattenAll, List.map_append, flatten_bare first,
        flattenAll_bareAll rest]

end

theorem resolveRule?_bare (grammar : Grammar) (name : String) :
    grammar.bare.resolveRule? name = (grammar.resolveRule? name).map Rule.bare := by
  rw [resolveRule?_eq_find?, resolveRule?_eq_find?, flatten_bare, List.find?_map]
  rfl

/-! ### Walks that declare exceptions -/

/-- A visitor that does no more to a rule than declare exceptions on it. -/
def OnlyDeclares {State : Type} (visitor : Visitor State) : Prop :=
  ∀ rule state, ∃ exceptions, (visitor rule state).1 = rule.requireAll exceptions

theorem onlyDeclares_declaring (exception : String) : OnlyDeclares (declaring exception) :=
  fun _ _ => ⟨[exception], rfl⟩

section Walk

variable {State : Type} {visitor : Visitor State}

theorem bare_step (declares : OnlyDeclares visitor) (rule : Rule) (walk : Walk State) :
    (walk.step visitor rule).1.bare = rule.bare := by
  unfold Walk.step
  split
  · rfl
  · obtain ⟨exceptions, same⟩ := declares rule walk.state
    exact (congrArg Rule.bare same).trans (rule.bare_requireAll exceptions)

theorem map_bare_visitRules (declares : OnlyDeclares visitor) (rules : List Rule)
    (walk : Walk State) :
    (visitRules visitor rules walk).1.map Rule.bare = rules.map Rule.bare := by
  induction rules generalizing walk with
  | nil => rfl
  | cons rule rest ih =>
      rw [visitRules, List.map_cons, List.map_cons, bare_step declares, ih]

mutual

/-- A walk may change the exceptions of rules at any depth, and changes nothing else. -/
theorem bare_visitImported (declares : OnlyDeclares visitor) :
    (grammar : Grammar) → (walk : Walk State) →
      (visitImported visitor grammar walk).1.bare = grammar.bare
  | ⟨name, kind, rules, delegates, vocabulary⟩, walk => by
      rw [visitImported, bare, bare, map_bare_visitRules declares,
        bareAll_visitImportedAll declares delegates]

theorem bareAll_visitImportedAll (declares : OnlyDeclares visitor) :
    (grammars : List Grammar) → (walk : Walk State) →
      bareAll (visitImportedAll visitor grammars walk).1 = bareAll grammars
  | [], _ => rfl
  | first :: rest, walk => by
      rw [visitImportedAll, bareAll, bareAll, bare_visitImported declares first,
        bareAll_visitImportedAll declares rest]

end

theorem bare_visitDelegated (declares : OnlyDeclares visitor) (grammar : Grammar)
    (state : State) :
    (grammar.visitDelegated visitor state).1.bare = grammar.bare := by
  cases grammar with
  | mk name kind rules delegates vocabulary =>
      rw [visitDelegated, bare, bare, bareAll_visitImportedAll declares]

end Walk

/-! ### Preparations -/

/-- What can be done to a grammar before code is emitted: a target adjusts it, an exception is
declared on every rule that it can start from, on a rule of its own, or on delegated rules by
a visitor that declares exceptions only. -/
inductive Prepares : Grammar → Grammar → Prop where
  | adjust (target : Target) (grammar : Grammar) : Prepares grammar (target.adjust grammar)
  | declare (grammar : Grammar) (exception : String) :
      Prepares grammar (grammar.requireException exception).2
  | declareAt {grammar changed : Grammar} {index : Nat} {exception : String} {added : Bool}
      (declared : grammar.requireAt? index exception = some (added, changed)) :
      Prepares grammar changed
  | visit {State : Type} {visitor : Visitor State} (declares : OnlyDeclares visitor)
      (grammar : Grammar) (state : State) :
      Prepares grammar (grammar.visitDelegated visitor state).1

theorem bare_requireException (grammar : Grammar) (exception : String) :
    (grammar.requireException exception).2.bare = grammar.bare := by
  unfold requireException
  rw [bare_visitDelegated (onlyDeclares_declaring exception), bare_eq, bare_eq]
  simp only [List.map_map, Function.comp_def, Rule.bare_require]

theorem bare_replaceRule {grammar : Grammar} {index : Nat} {rule changed : Rule}
    (listed : grammar.rules[index]? = some rule) (same : changed.bare = rule.bare) :
    (grammar.replaceRule index changed).bare = grammar.bare := by
  obtain ⟨within, found⟩ := List.getElem?_eq_some_iff.mp listed
  have unchanged : (grammar.rules.set index changed).map Rule.bare =
      grammar.rules.map Rule.bare := by
    rw [List.map_set, same, ← found, ← List.map_set, List.set_getElem_self]
  rw [replaceRule, bare_eq, bare_eq, unchanged]

theorem bare_requireAt? {grammar changed : Grammar} {index : Nat} {exception : String}
    {added : Bool} (declared : grammar.requireAt? index exception = some (added, changed)) :
    changed.bare = grammar.bare := by
  obtain ⟨rule, listed, same⟩ := Option.map_eq_some_iff.mp declared
  cases same
  exact bare_replaceRule listed (rule.bare_require exception)

/-- No preparation changes the bare grammar. -/
theorem Prepares.bare_eq {grammar changed : Grammar} (prepares : Prepares grammar changed) :
    changed.bare = grammar.bare := by
  cases prepares with
  | adjust target =>
      cases target with
      | apex => exact bare_requireException grammar recognitionException
      | java => rfl
      | delphi => rfl
  | declare _ exception => exact bare_requireException grammar exception
  | declareAt declared => exact bare_requireAt? declared
  | visit declares _ state => exact bare_visitDelegated declares grammar state

theorem bare_eq_of_prepared {grammar changed : Grammar}
    (prepared : Relation.ReflTransGen Prepares grammar changed) : changed.bare = grammar.bare := by
  induction prepared with
  | refl => rfl
  | tail _ last ih => exact last.bare_eq.trans ih

end Grammar

end LiteralGrammar
