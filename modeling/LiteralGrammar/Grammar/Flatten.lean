/-
All rules of a tree of grammars in one list, and which of them can be seen.

The list is in the order of the walks over imported grammars, but says nothing
of names already met; hiding is a property of the list.
-/

import LiteralGrammar.Grammar.Basic

namespace LiteralGrammar

namespace Grammar

mutual

def flatten : Grammar → List Rule
  | ⟨_, _, rules, delegates, _⟩ => rules ++ flattenAll delegates

def flattenAll : List Grammar → List Rule
  | [] => []
  | first :: rest => flatten first ++ flattenAll rest

end

theorem flattenAll_eq_flatMap (grammars : List Grammar) :
    flattenAll grammars = grammars.flatMap flatten := by
  induction grammars with
  | nil => rfl
  | cons first rest ih =>
      rw [flattenAll, ih, List.flatMap_cons]

theorem flatten_eq (grammar : Grammar) :
    grammar.flatten = grammar.rules ++ grammar.delegates.flatMap flatten := by
  cases grammar with
  | mk name kind rules delegates vocabulary =>
      rw [flatten, flattenAll_eq_flatMap]

/-- A grammar and whatever it imports, at any depth. -/
inductive Contains : Grammar → Grammar → Prop where
  | self (grammar : Grammar) : Contains grammar grammar
  | imported {outer middle inner : Grammar} (member : middle ∈ outer.delegates)
      (deeper : Contains middle inner) : Contains outer inner

end Grammar

/-- The rules whose names are neither hidden nor taken by a rule before them. -/
def visibleRules (hidden : List String) (rules : List Rule) : List Rule :=
  (rules.zipIdx.filter (fun entry =>
    entry.1.name ∉ hidden ++ (rules.take entry.2).map Rule.name)).map Prod.fst

/-- The places of the visible rules, in order. -/
def visiblePlaces (hidden : List String) (rules : List Rule) : List Nat :=
  (rules.zipIdx.filter (fun entry =>
    entry.1.name ∉ hidden ++ (rules.take entry.2).map Rule.name)).map Prod.snd

end LiteralGrammar
