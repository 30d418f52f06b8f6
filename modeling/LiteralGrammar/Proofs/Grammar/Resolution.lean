/-
Rules found through delegation, in the tree read as one list.

The walk over the imported grammars keeps the rules with new names of the tree
read depth first.  So what is taken over is what can be seen of the imported
trees, and a name stands for the first rule of the whole tree that has it.
-/

import LiteralGrammar.Grammar.Delegation
import LiteralGrammar.Grammar.Flatten

namespace LiteralGrammar

/-! ### Rules with new names -/

theorem newRules_append (left right : List Rule) (seen : List String) :
    newRules (left ++ right) seen =
      ((newRules left seen).1 ++ (newRules right (newRules left seen).2).1,
        (newRules right (newRules left seen).2).2) := by
  induction left generalizing seen with
  | nil => rfl
  | cons rule rest ih =>
      rw [List.cons_append, newRules, newRules]
      split
      · exact ih seen
      · rw [ih (rule.name :: seen)]
        rfl

/-- The visible rules of a list and their places are those of its rest, where the name of the
first rule is hidden too, and perhaps the first rule. -/
theorem filter_zipIdx_cons (hidden : List String) (rule : Rule) (rest : List Rule) :
    (rule :: rest).zipIdx.filter (fun entry =>
        entry.1.name ∉ hidden ++ ((rule :: rest).take entry.2).map Rule.name) =
      (if rule.name ∈ hidden then [] else [(rule, 0)]) ++
        (rest.zipIdx.filter (fun entry =>
          entry.1.name ∉ (hidden ++ [rule.name]) ++ (rest.take entry.2).map Rule.name)).map
            (Prod.map id (· + 1)) := by
  have later : (rest.zipIdx 1).filter (fun entry =>
      entry.1.name ∉ hidden ++ ((rule :: rest).take entry.2).map Rule.name) =
        (rest.zipIdx.filter (fun entry =>
          entry.1.name ∉ (hidden ++ [rule.name]) ++ (rest.take entry.2).map Rule.name)).map
            (Prod.map id (· + 1)) := by
    rw [List.zipIdx_succ, List.filter_map]
    simp only [Function.comp_def, List.take_succ_cons, List.map_cons, List.append_assoc,
      List.singleton_append]
    rfl
  rw [← later, List.zipIdx_cons, List.filter_cons]
  by_cases known : rule.name ∈ hidden
  · rw [if_pos known, if_neg (by simpa using known)]
    rfl
  · rw [if_neg known, if_pos (by simpa using known)]
    rfl

theorem visibleRules_cons (hidden : List String) (rule : Rule) (rest : List Rule) :
    visibleRules hidden (rule :: rest) =
      (if rule.name ∈ hidden then [] else [rule]) ++
        visibleRules (hidden ++ [rule.name]) rest := by
  unfold visibleRules
  rw [filter_zipIdx_cons, List.map_append, List.map_map]
  congr 1
  split <;> rfl

/-- Keeping a list of the names seen keeps the visible rules. -/
theorem newRules_eq_visibleRules {rules : List Rule} {seen hidden : List String}
    (same : ∀ name, name ∈ seen ↔ name ∈ hidden) :
    (newRules rules seen).1 = visibleRules hidden rules := by
  induction rules generalizing seen hidden with
  | nil => rfl
  | cons rule rest ih =>
      rw [newRules, visibleRules_cons]
      by_cases known : rule.name ∈ seen
      · rw [if_pos known, if_pos ((same rule.name).mp known)]
        apply ih
        intro name
        rw [List.mem_append, List.mem_singleton, ← same]
        exact ⟨Or.inl, fun either => either.elim id (fun equal => equal ▸ known)⟩
      · rw [if_neg known, if_neg (fun member => known ((same rule.name).mpr member))]
        apply congrArg (rule :: ·)
        apply ih
        intro name
        rw [List.mem_cons, List.mem_append, List.mem_singleton, same, or_comm]

theorem mem_names_newRules_iff (rules : List Rule) (seen : List String) (name : String) :
    name ∈ (newRules rules seen).1.map Rule.name ↔ name ∉ seen ∧ name ∈ rules.map Rule.name := by
  induction rules generalizing seen with
  | nil => simp [newRules]
  | cons rule rest ih =>
      rw [newRules, List.map_cons, List.mem_cons]
      split
      · rename_i known
        rw [ih]
        constructor
        · exact fun ⟨fresh, member⟩ => ⟨fresh, Or.inr member⟩
        · intro ⟨fresh, either⟩
          exact ⟨fresh, either.resolve_left (fun same => fresh (same ▸ known))⟩
      · rename_i new
        rw [List.map_cons, List.mem_cons, ih, List.mem_cons, not_or]
        by_cases same : name = rule.name
        · simp [same, new]
        · simp [same]

theorem names_newRules_nodup (rules : List Rule) (seen : List String) :
    ((newRules rules seen).1.map Rule.name).Nodup := by
  induction rules generalizing seen with
  | nil => exact List.nodup_nil
  | cons rule rest ih =>
      rw [newRules]
      split
      · exact ih seen
      · rw [List.map_cons, List.nodup_cons, mem_names_newRules_iff]
        exact ⟨fun member => member.1 List.mem_cons_self, ih _⟩

theorem find?_newRules (rules : List Rule) {seen : List String} {name : String}
    (fresh : name ∉ seen) :
    (newRules rules seen).1.find? (fun rule => rule.name = name) =
      rules.find? (fun rule => rule.name = name) := by
  induction rules generalizing seen with
  | nil => rfl
  | cons rule rest ih =>
      rw [newRules]
      split
      · rename_i known
        have different : rule.name ≠ name := fun same => fresh (same ▸ known)
        rw [ih fresh, List.find?_cons_of_neg (by simpa using different)]
      · by_cases same : rule.name = name
        · rw [List.find?_cons_of_pos (by simpa using same),
            List.find?_cons_of_pos (by simpa using same)]
        · rw [List.find?_cons_of_neg (by simpa using same),
            List.find?_cons_of_neg (by simpa using same)]
          apply ih
          exact fun member => (List.mem_cons.mp member).elim (fun equal => same equal.symm) fresh

namespace Grammar

/-! ### Trees of grammars -/

mutual

/-- Walking a tree is looking for new names in all its rules. -/
theorem importedRules_eq : (grammar : Grammar) → (seen : List String) →
    importedRules grammar seen = newRules grammar.flatten seen
  | ⟨_, _, rules, delegates, _⟩, seen => by
      rw [importedRules, flatten, newRules_append, importedFromAll_eq delegates]

theorem importedFromAll_eq : (grammars : List Grammar) → (seen : List String) →
    importedFromAll grammars seen = newRules (flattenAll grammars) seen
  | [], _ => rfl
  | first :: rest, seen => by
      rw [importedFromAll, flattenAll, newRules_append, importedRules_eq first,
        importedFromAll_eq rest]

end

theorem delegatedRules_eq (grammar : Grammar) :
    grammar.delegatedRules =
      (newRules (grammar.delegates.flatMap flatten) grammar.ruleNames).1 := by
  unfold delegatedRules
  rw [importedFromAll_eq, flattenAll_eq_flatMap]

theorem mem_ruleNames_iff (grammar : Grammar) (name : String) :
    name ∈ grammar.ruleNames ↔ (grammar.rule? name).isSome = true := by
  unfold ruleNames rule?
  rw [List.mem_map, List.find?_isSome]
  simp only [decide_eq_true_eq]

/-- A name stands for the first rule of the tree that has it. -/
theorem resolveRule?_eq_find? (grammar : Grammar) (name : String) :
    grammar.resolveRule? name = grammar.flatten.find? (fun rule => rule.name = name) := by
  rw [flatten_eq, List.find?_append]
  change _ = (grammar.rule? name).or _
  unfold resolveRule?
  cases own : grammar.rule? name with
  | some rule => rfl
  | none =>
      have fresh : name ∉ grammar.ruleNames := by
        rw [mem_ruleNames_iff, own]
        exact Bool.false_ne_true
      rw [delegatedRules_eq]
      exact find?_newRules _ fresh

/-- What a name stands for is a rule of the tree. -/
theorem mem_flatten_of_resolveRule? {grammar : Grammar} {name : String} {rule : Rule}
    (resolved : grammar.resolveRule? name = some rule) : rule ∈ grammar.flatten := by
  rw [resolveRule?_eq_find?] at resolved
  exact List.mem_of_find?_eq_some resolved

mutual

theorem exists_definer_of_flatten : (grammar : Grammar) → {name : String} → {rule : Rule} →
    grammar.flatten.find? (fun rule => rule.name = name) = some rule →
    ∃ definer, grammar.Contains definer ∧ definer.rule? name = some rule
  | ⟨grammarName, kind, rules, delegates, vocabulary⟩, name, rule, found => by
      rw [flatten, List.find?_append] at found
      rcases Option.or_eq_some_iff.mp found with own | ⟨_, imported⟩
      · exact ⟨_, Contains.self _, own⟩
      · obtain ⟨direct, member, definer, contains, defined⟩ :=
          exists_definer_of_flattenAll delegates imported
        exact ⟨definer, Contains.imported member contains, defined⟩

theorem exists_definer_of_flattenAll : (grammars : List Grammar) → {name : String} →
    {rule : Rule} → (flattenAll grammars).find? (fun rule => rule.name = name) = some rule →
    ∃ grammar ∈ grammars, ∃ definer, grammar.Contains definer ∧ definer.rule? name = some rule
  | [], _, _, found => by cases found
  | first :: rest, name, rule, found => by
      rw [flattenAll, List.find?_append] at found
      rcases Option.or_eq_some_iff.mp found with here | ⟨_, later⟩
      · exact ⟨first, List.mem_cons_self, exists_definer_of_flatten first here⟩
      · obtain ⟨grammar, member, defined⟩ := exists_definer_of_flattenAll rest later
        exact ⟨grammar, List.mem_cons_of_mem first member, defined⟩

end

/-- What a name stands for is a rule of some grammar in the tree, the first there with the name. -/
theorem exists_definer_of_resolveRule? {grammar : Grammar} {name : String} {rule : Rule}
    (resolved : grammar.resolveRule? name = some rule) :
    ∃ definer, grammar.Contains definer ∧ definer.rule? name = some rule := by
  rw [resolveRule?_eq_find?] at resolved
  exact exists_definer_of_flatten grammar resolved

/-- Delegation takes the first definition: the rules taken over are those of the imported trees,
one tree after the other, that are the first with their name and not hidden by a rule of the
grammar's own; each name of the tree that no own rule has is the name of exactly one of them.
Any name stands for the first rule of the whole tree that has it, and for none if none has it. -/
theorem delegation_first_definition (grammar : Grammar) :
    grammar.delegatedRules =
        visibleRules grammar.ruleNames (grammar.delegates.flatMap flatten) ∧
      (grammar.delegatedRules.map Rule.name).Nodup ∧
      (∀ name, name ∈ grammar.delegatedRules.map Rule.name ↔
        name ∉ grammar.ruleNames ∧ ∃ rule ∈ grammar.flatten, rule.name = name) ∧
      (∀ name, grammar.resolveRule? name =
        grammar.flatten.find? (fun rule => rule.name = name)) ∧
      ∀ name, grammar.resolveRule? name = none ↔ ∀ rule ∈ grammar.flatten, rule.name ≠ name := by
  refine ⟨?_, ?_, ?_, grammar.resolveRule?_eq_find?, ?_⟩
  · rw [delegatedRules_eq]
    exact newRules_eq_visibleRules (fun _ => Iff.rfl)
  · rw [delegatedRules_eq]
    exact names_newRules_nodup _ _
  · intro name
    rw [delegatedRules_eq, mem_names_newRules_iff, and_congr_right_iff]
    intro fresh
    rw [← List.mem_map, flatten_eq, List.map_append, List.mem_append]
    exact (or_iff_right fresh).symm
  · intro name
    rw [resolveRule?_eq_find?, List.find?_eq_none]
    simp only [decide_eq_true_eq, ne_eq]

end Grammar

end LiteralGrammar
