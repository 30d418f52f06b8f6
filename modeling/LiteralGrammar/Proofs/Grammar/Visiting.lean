/-
Walks that change delegated rules, in the tree read as one list.

A changing walk over a tree does to its list of rules what a walk over that list
does.  A walk over a list shows the visitor the rules with new names, one after
the other, which are those that the reading walk keeps; and where no name is
changed, the same places are visible afterwards.

A tree is its outline and its rules in order, so two walks over one grammar come
to the same when the two lists do and no walk touches the outline.
-/

import LiteralGrammar.Proofs.Grammar.Resolution

namespace LiteralGrammar

/-! ### Walks over a list -/

section

variable {State : Type} (visitor : Visitor State)

/-- Shows every rule of a list to a visitor, whatever the names. -/
def visitEach : List Rule → State → List Rule × State
  | [], state => ([], state)
  | rule :: rest, state =>
      let changed := visitor rule state
      let later := visitEach rest changed.2
      (changed.1 :: later.1, later.2)

theorem visitRules_append (left right : List Rule) (walk : Walk State) :
    visitRules visitor (left ++ right) walk =
      ((visitRules visitor left walk).1 ++
          (visitRules visitor right (visitRules visitor left walk).2).1,
        (visitRules visitor right (visitRules visitor left walk).2).2) := by
  induction left generalizing walk with
  | nil => rfl
  | cons rule rest ih => rw [List.cons_append, visitRules, visitRules, ih, List.cons_append]

theorem visitRules_known {rule : Rule} {walk : Walk State} (known : rule.name ∈ walk.seen)
    (rest : List Rule) :
    visitRules visitor (rule :: rest) walk =
      (rule :: (visitRules visitor rest walk).1, (visitRules visitor rest walk).2) := by
  rw [visitRules, Walk.step, if_pos known]

theorem visitRules_new {rule : Rule} {walk : Walk State} (new : rule.name ∉ walk.seen)
    (rest : List Rule) :
    visitRules visitor (rule :: rest) walk =
      ((visitor rule walk.state).1 ::
          (visitRules visitor rest
            { seen := rule.name :: walk.seen, state := (visitor rule walk.state).2 }).1,
        (visitRules visitor rest
          { seen := rule.name :: walk.seen, state := (visitor rule walk.state).2 }).2) := by
  rw [visitRules, Walk.step, if_neg new]

/-- The visitor is shown the rules with new names, in order, and no others. -/
theorem state_visitRules (rules : List Rule) (walk : Walk State) :
    (visitRules visitor rules walk).2.state =
      (visitEach visitor (newRules rules walk.seen).1 walk.state).2 := by
  induction rules generalizing walk with
  | nil => rfl
  | cons rule rest ih =>
      rw [newRules]
      by_cases known : rule.name ∈ walk.seen
      · rw [visitRules_known visitor known, if_pos known]
        exact ih walk
      · rw [visitRules_new visitor known, if_neg known]
        exact ih _

theorem names_visitEach (keeps : ∀ rule state, (visitor rule state).1.name = rule.name)
    (rules : List Rule) (state : State) :
    (visitEach visitor rules state).1.map Rule.name = rules.map Rule.name := by
  induction rules generalizing state with
  | nil => rfl
  | cons rule rest ih => rw [visitEach, List.map_cons, List.map_cons, keeps, ih]

/-- Where no name is changed, the results stand at the places that can be seen. -/
theorem newRules_visitRules (rules : List Rule) (walk : Walk State)
    (kept : (visitEach visitor (newRules rules walk.seen).1 walk.state).1.map Rule.name =
      (newRules rules walk.seen).1.map Rule.name) :
    (newRules (visitRules visitor rules walk).1 walk.seen).1 =
      (visitEach visitor (newRules rules walk.seen).1 walk.state).1 := by
  induction rules generalizing walk with
  | nil => rfl
  | cons rule rest ih =>
      rw [newRules] at kept ⊢
      by_cases known : rule.name ∈ walk.seen
      · rw [if_pos known] at kept ⊢
        rw [visitRules_known visitor known, newRules, if_pos known]
        exact ih walk kept
      · rw [if_neg known, visitEach, List.map_cons, List.map_cons, List.cons.injEq] at kept
        obtain ⟨here, later⟩ := kept
        rw [if_neg known, visitRules_new visitor known, newRules, here, if_neg known]
        exact congrArg (_ :: ·) (ih _ later)

end

namespace Grammar

/-! ### Walks over a tree -/

section

variable {State : Type} (visitor : Visitor State)

mutual

theorem flatten_visitImported : (grammar : Grammar) → (walk : Walk State) →
    ((visitImported visitor grammar walk).1.flatten, (visitImported visitor grammar walk).2) =
      visitRules visitor grammar.flatten walk
  | ⟨_, _, rules, delegates, _⟩, walk => by
      rw [visitImported, flatten, flatten, visitRules_append,
        ← flattenAll_visitImportedAll delegates]

theorem flattenAll_visitImportedAll : (grammars : List Grammar) → (walk : Walk State) →
    (flattenAll (visitImportedAll visitor grammars walk).1,
        (visitImportedAll visitor grammars walk).2) =
      visitRules visitor (flattenAll grammars) walk
  | [], _ => rfl
  | first :: rest, walk => by
      rw [visitImportedAll, flattenAll, flattenAll, visitRules_append,
        ← flatten_visitImported first, ← flattenAll_visitImportedAll rest]

end

/-- What a grammar imports is walked over as one list, its own names being seen. -/
theorem delegates_visitDelegated (grammar : Grammar) (state : State) :
    (grammar.visitDelegated visitor state).1.delegates.flatMap flatten =
      (visitRules visitor (grammar.delegates.flatMap flatten)
        { seen := grammar.ruleNames, state := state }).1 := by
  unfold visitDelegated
  rw [← flattenAll_eq_flatMap, ← flattenAll_eq_flatMap, ← flattenAll_visitImportedAll]

theorem state_visitDelegated (grammar : Grammar) (state : State) :
    (grammar.visitDelegated visitor state).2 =
      (visitEach visitor grammar.delegatedRules state).2 := by
  rw [delegatedRules_eq, ← flattenAll_eq_flatMap]
  rw [← state_visitRules visitor _ { seen := grammar.ruleNames, state := state },
    ← flattenAll_visitImportedAll]
  rfl

theorem delegatedRules_visitDelegated (grammar : Grammar) (state : State)
    (kept : (visitEach visitor grammar.delegatedRules state).1.map Rule.name =
      grammar.delegatedRules.map Rule.name) :
    (grammar.visitDelegated visitor state).1.delegatedRules =
      (visitEach visitor grammar.delegatedRules state).1 := by
  have own : (grammar.visitDelegated visitor state).1.ruleNames = grammar.ruleNames := rfl
  rw [delegatedRules_eq] at kept
  rw [delegatedRules_eq, own, delegates_visitDelegated, delegatedRules_eq]
  exact newRules_visitRules visitor _ { seen := grammar.ruleNames, state := state } kept

end

end Grammar

/-! ### Outlines -/

/-- A grammar without its rules, save how many there are at each place of the tree. -/
structure Outline where
  name : String
  kind : GrammarKind
  ruleCount : Nat
  delegates : List Outline
  vocabulary : Vocabulary

namespace Grammar

mutual

def outline : Grammar → Outline
  | ⟨name, kind, rules, delegates, vocabulary⟩ =>
      ⟨name, kind, rules.length, outlineAll delegates, vocabulary⟩

def outlineAll : List Grammar → List Outline
  | [] => []
  | first :: rest => outline first :: outlineAll rest

end

mutual

theorem length_flatten_of_outline : (left right : Grammar) → left.outline = right.outline →
    left.flatten.length = right.flatten.length
  | ⟨_, _, _, leftDelegates, _⟩, ⟨_, _, _, rightDelegates, _⟩, same => by
      rw [outline, outline, Outline.mk.injEq] at same
      obtain ⟨_, _, counts, delegates, _⟩ := same
      rw [flatten, flatten, List.length_append, List.length_append, counts,
        length_flattenAll_of_outline leftDelegates rightDelegates delegates]

theorem length_flattenAll_of_outline : (left right : List Grammar) →
    outlineAll left = outlineAll right → (flattenAll left).length = (flattenAll right).length
  | [], [], _ => rfl
  | leftFirst :: leftRest, rightFirst :: rightRest, same => by
      rw [outlineAll, outlineAll, List.cons.injEq] at same
      rw [flattenAll, flattenAll, List.length_append, List.length_append,
        length_flatten_of_outline leftFirst rightFirst same.1,
        length_flattenAll_of_outline leftRest rightRest same.2]

end

mutual

/-- A grammar is told by its outline and the rules of its tree in order. -/
theorem ext_outline : (left right : Grammar) → left.outline = right.outline →
    left.flatten = right.flatten → left = right
  | ⟨_, _, _, leftDelegates, _⟩, ⟨_, _, _, rightDelegates, _⟩, same, flat => by
      rw [outline, outline, Outline.mk.injEq] at same
      obtain ⟨names, kinds, counts, delegates, vocabularies⟩ := same
      rw [flatten, flatten] at flat
      obtain ⟨own, imported⟩ := List.append_inj flat counts
      rw [names, kinds, own, extAll_outline leftDelegates rightDelegates delegates imported,
        vocabularies]

theorem extAll_outline : (left right : List Grammar) → outlineAll left = outlineAll right →
    flattenAll left = flattenAll right → left = right
  | [], [], _, _ => rfl
  | leftFirst :: leftRest, rightFirst :: rightRest, same, flat => by
      rw [outlineAll, outlineAll, List.cons.injEq] at same
      rw [flattenAll, flattenAll] at flat
      obtain ⟨here, later⟩ :=
        List.append_inj flat (length_flatten_of_outline leftFirst rightFirst same.1)
      rw [ext_outline leftFirst rightFirst same.1 here,
        extAll_outline leftRest rightRest same.2 later]

end

end Grammar

end LiteralGrammar
