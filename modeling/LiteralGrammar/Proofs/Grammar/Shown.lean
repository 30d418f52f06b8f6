/-
What a changing walk shows its visitor, and where it leaves what it gets back.

The walk goes by the name that a rule has when it is come to, so the rules shown
are the delegated ones as they were, whatever the visitor makes of them.  Each
result takes the place of the rule that was shown; the rest of the tree is not
written to.
-/

import LiteralGrammar.Proofs.Grammar.Visiting

namespace LiteralGrammar

/-! ### Visible places -/

/-- At the visible places stand the visible rules. -/
theorem map_getElem?_visiblePlaces (hidden : List String) (rules : List Rule) :
    (visiblePlaces hidden rules).map (fun place => rules[place]?) =
      (visibleRules hidden rules).map some := by
  unfold visiblePlaces visibleRules
  rw [List.map_map, List.map_map]
  apply List.map_congr_left
  intro entry member
  exact List.mk_mem_zipIdx_iff_getElem?.mp (List.mem_filter.mp member).1

theorem visiblePlaces_congr {left right : List String}
    (same : ∀ name, name ∈ left ↔ name ∈ right) (rules : List Rule) :
    visiblePlaces left rules = visiblePlaces right rules := by
  unfold visiblePlaces
  simp only [List.mem_append, same]

theorem visiblePlaces_cons (hidden : List String) (rule : Rule) (rest : List Rule) :
    visiblePlaces hidden (rule :: rest) =
      (if rule.name ∈ hidden then [] else [0]) ++
        (visiblePlaces (rule.name :: hidden) rest).map (· + 1) := by
  have same (name : String) : name ∈ hidden ++ [rule.name] ↔ name ∈ rule.name :: hidden := by
    rw [List.mem_append, List.mem_singleton, List.mem_cons, or_comm]
  rw [← visiblePlaces_congr same]
  unfold visiblePlaces
  rw [filter_zipIdx_cons, List.map_append, List.map_map, List.map_map]
  congr 1
  split <;> rfl

theorem visiblePlaces_known {hidden : List String} {rule : Rule} (known : rule.name ∈ hidden)
    (rest : List Rule) :
    visiblePlaces hidden (rule :: rest) = (visiblePlaces hidden rest).map (· + 1) := by
  have same (name : String) : name ∈ rule.name :: hidden ↔ name ∈ hidden := by
    rw [List.mem_cons]
    exact or_iff_right_of_imp (fun equal => equal ▸ known)
  rw [visiblePlaces_cons, if_pos known, List.nil_append, visiblePlaces_congr same]

theorem visiblePlaces_new {hidden : List String} {rule : Rule} (new : rule.name ∉ hidden)
    (rest : List Rule) :
    visiblePlaces hidden (rule :: rest) =
      0 :: (visiblePlaces (rule.name :: hidden) rest).map (· + 1) := by
  rw [visiblePlaces_cons, if_neg new, List.singleton_append]

/-! ### Walks over a list -/

/-- A visitor that goes on as before and keeps a list of the rules it was shown. -/
def Visitor.recorded {State : Type} (visitor : Visitor State) : Visitor (State × List Rule) :=
  fun rule state =>
    let changed := visitor rule state.1
    (changed.1, (changed.2, state.2 ++ [rule]))

section

variable {State : Type} (visitor : Visitor State)

theorem length_visitRules (rules : List Rule) (walk : Walk State) :
    (visitRules visitor rules walk).1.length = rules.length := by
  induction rules generalizing walk with
  | nil => rfl
  | cons rule rest ih => rw [visitRules, List.length_cons, List.length_cons, ih]

/-- The results of a visitor stand at the places that were visible before the walk. -/
theorem map_getElem?_visitRules (rules : List Rule) (walk : Walk State) :
    (visiblePlaces walk.seen rules).map (fun place => (visitRules visitor rules walk).1[place]?) =
      (visitEach visitor (newRules rules walk.seen).1 walk.state).1.map some := by
  induction rules generalizing walk with
  | nil => rfl
  | cons rule rest ih =>
      rw [newRules]
      by_cases known : rule.name ∈ walk.seen
      · rw [visiblePlaces_known known, if_pos known, visitRules_known visitor known, List.map_map]
        exact ih walk
      · rw [visiblePlaces_new known, if_neg known, visitRules_new visitor known, List.map_cons,
          List.map_map]
        exact congrArg (_ :: ·) (ih _)

/-- A place that was not visible keeps its rule. -/
theorem getElem?_visitRules {rules : List Rule} {walk : Walk State} {place : Nat}
    (passed : place ∉ visiblePlaces walk.seen rules) :
    (visitRules visitor rules walk).1[place]? = rules[place]? := by
  induction rules generalizing walk place with
  | nil => rfl
  | cons rule rest ih =>
      by_cases known : rule.name ∈ walk.seen
      · rw [visiblePlaces_known known] at passed
        rw [visitRules_known visitor known]
        cases place with
        | zero => rfl
        | succ place => exact ih (fun member => passed (List.mem_map_of_mem member))
      · rw [visiblePlaces_new known, List.mem_cons, not_or] at passed
        obtain ⟨behind, later⟩ := passed
        rw [visitRules_new visitor known]
        cases place with
        | zero => exact absurd rfl behind
        | succ place =>
            have behindRest : place ∉ visiblePlaces (rule.name :: walk.seen) rest :=
              fun member => later (List.mem_map_of_mem member)
            exact ih behindRest

theorem visitEach_recorded (rules : List Rule) (state : State) (past : List Rule) :
    visitEach visitor.recorded rules (state, past) =
      ((visitEach visitor rules state).1, ((visitEach visitor rules state).2, past ++ rules)) := by
  induction rules generalizing state past with
  | nil => rw [visitEach, visitEach, List.append_nil]
  | cons rule rest ih =>
      rw [visitEach, visitEach, Visitor.recorded, ih, List.append_assoc, List.singleton_append]

/-- Keeping a record changes nothing in the walk. -/
theorem visitRules_recorded (rules : List Rule) (seen : List String) (state : State)
    (past : List Rule) :
    (visitRules visitor.recorded rules { seen := seen, state := (state, past) }).1 =
      (visitRules visitor rules { seen := seen, state := state }).1 := by
  induction rules generalizing seen state past with
  | nil => rfl
  | cons rule rest ih =>
      by_cases known : rule.name ∈ seen
      · rw [visitRules_known _ known, visitRules_known _ known, ih]
      · rw [visitRules_new _ known, visitRules_new _ known]
        exact congrArg (_ :: ·) (ih _ _ _)

end

namespace Grammar

/-! ### Walks over a tree -/

section

variable {State : Type} (visitor : Visitor State)

mutual

theorem outline_visitImported : (grammar : Grammar) → (walk : Walk State) →
    (visitImported visitor grammar walk).1.outline = grammar.outline
  | ⟨_, _, rules, delegates, _⟩, walk => by
      rw [visitImported, outline, outline, length_visitRules,
        outlineAll_visitImportedAll delegates]

theorem outlineAll_visitImportedAll : (grammars : List Grammar) → (walk : Walk State) →
    outlineAll (visitImportedAll visitor grammars walk).1 = outlineAll grammars
  | [], _ => rfl
  | first :: rest, walk => by
      rw [visitImportedAll, outlineAll, outlineAll, outline_visitImported first,
        outlineAll_visitImportedAll rest]

end

theorem outline_visitDelegated (grammar : Grammar) (state : State) :
    (grammar.visitDelegated visitor state).1.outline = grammar.outline := by
  cases grammar with
  | mk name kind rules delegates vocabulary =>
      rw [visitDelegated, outline, outline, outlineAll_visitImportedAll]

theorem visitDelegated_recorded (grammar : Grammar) (state : State) :
    grammar.visitDelegated visitor.recorded (state, []) =
      ((grammar.visitDelegated visitor state).1,
        ((grammar.visitDelegated visitor state).2, grammar.delegatedRules)) := by
  refine Prod.ext ?_ ?_
  · apply ext_outline
    · rw [outline_visitDelegated, outline_visitDelegated]
    · rw [flatten_eq, flatten_eq, delegates_visitDelegated, delegates_visitDelegated,
        visitRules_recorded]
      rfl
  · rw [state_visitDelegated, state_visitDelegated, visitEach_recorded, List.nil_append]

end

/-- A name stands for something when an own rule has it or a delegated one. -/
theorem resolveRule?_isSome_iff (grammar : Grammar) (name : String) :
    (grammar.resolveRule? name).isSome = true ↔
      name ∈ grammar.ruleNames ∨ name ∈ grammar.delegatedRules.map Rule.name := by
  rw [mem_ruleNames_iff]
  unfold resolveRule?
  cases grammar.rule? name with
  | some rule => exact ⟨fun _ => Or.inl rfl, fun _ => rfl⟩
  | none =>
      rw [List.find?_isSome, List.mem_map]
      simp

/-- What a changing walk comes to, by the rules that the reading walk lists and the places of the
imported trees, read as one list, at which they stand. -/
structure VisitsDelegated {State : Type} (visitor : Visitor State) (grammar : Grammar)
    (state : State) (changed : Grammar) (last : State) : Prop where
  /-- The visitor is called on the delegated rules, once on each and in order. -/
  shown : grammar.visitDelegated visitor.recorded (state, []) =
    (changed, (last, grammar.delegatedRules))
  last : last = (visitEach visitor grammar.delegatedRules state).2
  listed : (visiblePlaces grammar.ruleNames (grammar.delegates.flatMap flatten)).map
      (fun place => (grammar.delegates.flatMap flatten)[place]?) =
    grammar.delegatedRules.map some
  placed : (visiblePlaces grammar.ruleNames (grammar.delegates.flatMap flatten)).map
      (fun place => (changed.delegates.flatMap flatten)[place]?) =
    (visitEach visitor grammar.delegatedRules state).1.map some
  passed : ∀ place ∉ visiblePlaces grammar.ruleNames (grammar.delegates.flatMap flatten),
    (changed.delegates.flatMap flatten)[place]? = (grammar.delegates.flatMap flatten)[place]?
  own : changed.rules = grammar.rules
  /-- Names, kinds and vocabularies of grammars, how many rules each has and what it imports. -/
  outline : changed.outline = grammar.outline
  /-- Where the visitor has changed no name, the rules listed are its results. -/
  renamed : (visitEach visitor grammar.delegatedRules state).1.map Rule.name =
      grammar.delegatedRules.map Rule.name →
    changed.delegatedRules = (visitEach visitor grammar.delegatedRules state).1 ∧
      ∀ name, (changed.resolveRule? name).isSome = (grammar.resolveRule? name).isSome

/-- The walk that changes delegated rules shows those that the reading walk lists, as they are
before it, and leaves each result in the place of the rule shown.  No other rule, no vocabulary and
nothing of the shape of the tree is changed.  As long as no name is, the rules listed afterwards are
the results, in the same order, and the same names stand for a rule. -/
theorem visitDelegated_exact {State : Type} (visitor : Visitor State) (grammar : Grammar)
    (state : State) :
    VisitsDelegated visitor grammar state (grammar.visitDelegated visitor state).1
      (grammar.visitDelegated visitor state).2 where
  shown := visitDelegated_recorded visitor grammar state
  last := state_visitDelegated visitor grammar state
  listed := by
    rw [map_getElem?_visiblePlaces, delegatedRules_eq, newRules_eq_visibleRules (fun _ => Iff.rfl)]
  placed := by
    rw [delegates_visitDelegated, delegatedRules_eq]
    exact map_getElem?_visitRules visitor _ { seen := grammar.ruleNames, state := state }
  passed := by
    intro place passed
    rw [delegates_visitDelegated]
    exact getElem?_visitRules visitor passed
  own := rfl
  outline := outline_visitDelegated visitor grammar state
  renamed := by
    intro kept
    have results := delegatedRules_visitDelegated visitor grammar state kept
    refine ⟨results, ?_⟩
    intro name
    have own : (grammar.visitDelegated visitor state).1.ruleNames = grammar.ruleNames := rfl
    rw [Bool.eq_iff_iff, resolveRule?_isSome_iff, resolveRule?_isSome_iff, own, results, kept]

private def numbered (name : String) (count : Nat) : Rule :=
  { name := name
    alternatives := List.replicate count []
    exceptions := ExceptionSet.empty }

/-- Gives each rule one empty alternative more than the rule shown before. -/
private def numbering : Visitor Nat :=
  fun rule count => (numbered rule.name count, count + 1)

private def holding (name : String) (rules : List String) (delegates : List Grammar) : Grammar :=
  { name := name
    kind := .parser
    rules := rules.map (fun rule => numbered rule 7)
    delegates := delegates
    vocabulary := Vocabulary.empty }

/-- Rules are hidden by one of the grammar's own, by an outer and by an earlier import. -/
private def shadowing : Grammar :=
  holding "Root" ["a"]
    [holding "Left" ["b", "a"] [holding "Deep" ["c", "b"] []], holding "Right" ["c", "d"] []]

theorem visitDelegated_exact_shadowing :
    ∃ changed, shadowing.visitDelegated numbering 1 = (changed, 4) ∧
      VisitsDelegated numbering shadowing 1 changed 4 ∧
      visiblePlaces shadowing.ruleNames (shadowing.delegates.flatMap flatten) = [0, 2, 5] ∧
      changed.delegates.flatMap flatten =
        [numbered "b" 1, numbered "a" 7, numbered "c" 2, numbered "b" 7, numbered "c" 7,
          numbered "d" 3] ∧
      changed.delegatedRules = [numbered "b" 1, numbered "c" 2, numbered "d" 3] ∧
      (changed.resolveRule? "c").isSome = (shadowing.resolveRule? "c").isSome := by
  have visits := visitDelegated_exact numbering shadowing 1
  obtain ⟨results, resolves⟩ := visits.renamed (by decide)
  exact ⟨_, rfl, visits, by decide, by decide, results, resolves "c"⟩

end Grammar

end LiteralGrammar
