/-
What declaring an exception on a whole grammar reaches.

It reaches the grammar's own rules and, of the rules it imports, those that no
rule with the same name precedes.  These are the rules that a name can stand
for; each gets the exception, and no other rule and nothing else of the tree is
touched.  Names decide what is reached, and declaring keeps them, so a second
declaration reaches the same places.
-/

import LiteralGrammar.Grammar.Exceptions
import LiteralGrammar.Proofs.Grammar.Preparation
import LiteralGrammar.Proofs.Grammar.Visiting
import LiteralGrammar.Proofs.Rule.Exceptions

namespace LiteralGrammar

namespace Rule

/-- The rule with one more exception, or as it is where that is declared already. -/
def declare (rule : Rule) (exception : String) : Rule :=
  { rule with exceptions := rule.exceptions.insert exception }

theorem require_eq (rule : Rule) (exception : String) :
    rule.require exception = (!rule.exceptions.declares exception, rule.declare exception) :=
  Prod.ext (rule.exceptions.require_fst exception)
    (congrArg (fun exceptions => { rule with exceptions := exceptions })
      (rule.exceptions.require_snd exception))

theorem declares_declare (rule : Rule) (exception : String) :
    (rule.declare exception).exceptions.declares exception = true := by
  unfold declare
  rw [ExceptionSet.declares_insert, decide_eq_true rfl, Bool.true_or]

theorem declare_declare (rule : Rule) (exception : String) :
    (rule.declare exception).declare exception = rule.declare exception := by
  unfold declare
  rw [ExceptionSet.insert_insert]

theorem declare_comm (rule : Rule) (first second : String) :
    (rule.declare first).declare second = (rule.declare second).declare first := by
  unfold declare
  rw [ExceptionSet.insert_comm]

end Rule

namespace Grammar

/-! ### The declaring visitor -/

theorem visitEach_declaring (exception : String) (rules : List Rule) (coverage : Coverage) :
    visitEach (declaring exception) rules coverage =
      (rules.map (fun rule => rule.declare exception),
        { coverage with
          delegated := coverage.delegated + rules.length
          added := coverage.added +
            rules.countP (fun rule => !rule.exceptions.declares exception) }) := by
  induction rules generalizing coverage with
  | nil => rfl
  | cons rule rest ih =>
      rw [visitEach, ih]
      simp only [declaring, Rule.require_eq, List.map_cons, List.length_cons, List.countP_cons,
        Prod.mk.injEq, Coverage.mk.injEq, true_and]
      constructor
      · omega
      · cases rule.exceptions.declares exception with
        | false =>
            simp only [Bool.not_false, Bool.toNat_true, if_true]
            omega
        | true => simp

/-- The visitor changes each rule whose name neither was seen before nor precedes it. -/
theorem visitRules_declaring (exception : String) (rules : List Rule) (walk : Walk Coverage) :
    (visitRules (declaring exception) rules walk).1 =
      rules.mapIdx (fun position rule =>
        if rule.name ∈ walk.seen ∨ rule.name ∈ (rules.take position).map Rule.name then rule
        else rule.declare exception) := by
  -- Behind a rule, its name is among the seen ones for the walk and among the earlier ones here.
  induction rules generalizing walk with
  | nil => rfl
  | cons rule rest ih =>
      rw [List.mapIdx_cons, List.take_zero]
      simp only [List.map_nil, List.not_mem_nil, or_false, List.take_succ_cons, List.map_cons,
        List.mem_cons]
      by_cases known : rule.name ∈ walk.seen
      · rw [visitRules_known _ known, if_pos known]
        refine congrArg (rule :: ·) ?_
        rw [ih, List.mapIdx_eq_mapIdx_iff]
        intro position within
        have same : rest[position].name = rule.name → rest[position].name ∈ walk.seen :=
          fun equal => equal ▸ known
        simp only [← or_assoc, or_iff_left_of_imp same]
      · rw [visitRules_new _ known, if_neg known]
        refine congrArg₂ List.cons (congrArg Prod.snd (rule.require_eq exception)) ?_
        rw [ih, List.mapIdx_eq_mapIdx_iff]
        intro position within
        simp only [List.mem_cons, or_assoc, or_left_comm]

/-! ### Places -/

/-- Whether a rule at this place of the tree is one of the grammar's own or the first with its
name. -/
def Reaches (grammar : Grammar) (position : Nat) (rule : Rule) : Prop :=
  position < grammar.rules.length ∨
    rule.name ∉ (grammar.flatten.take position).map Rule.name

instance (grammar : Grammar) (position : Nat) (rule : Rule) :
    Decidable (grammar.Reaches position rule) :=
  inferInstanceAs (Decidable (_ ∨ _))

/-- A place among the imported rules is reached by a name that no rule before it has. -/
theorem reaches_imported_iff (grammar : Grammar) (position : Nat) (rule : Rule) :
    grammar.Reaches (position + grammar.rules.length) rule ↔
      ¬(rule.name ∈ grammar.ruleNames ∨
        rule.name ∈ ((grammar.delegates.flatMap flatten).take position).map Rule.name) := by
  have behind : ¬position + grammar.rules.length < grammar.rules.length := by omega
  unfold Reaches ruleNames
  rw [or_iff_right behind, flatten_eq, Nat.add_comm, List.take_length_add_append, List.map_append,
    List.mem_append]

/-- What is reached depends on names and on how many rules are the grammar's own. -/
theorem reaches_of_bare_eq {left right : Grammar} (same : left.bare = right.bare)
    {position : Nat} {leftRule rightRule : Rule} (named : leftRule.name = rightRule.name) :
    left.Reaches position leftRule ↔ right.Reaches position rightRule := by
  have counts : left.rules.length = right.rules.length := by
    have rules := congrArg (fun grammar => grammar.rules.length) same
    rw [bare_eq left, bare_eq right] at rules
    simpa only [List.length_map] using rules
  have names : left.flatten.map Rule.name = right.flatten.map Rule.name := by
    have flat := congrArg (fun grammar => grammar.flatten.map Rule.name) same
    simp only [flatten_bare, List.map_map] at flat
    exact flat
  unfold Reaches
  rw [counts, named, List.map_take, List.map_take, names]

mutual

theorem outline_bare : (grammar : Grammar) → grammar.bare.outline = grammar.outline
  | ⟨_, _, _, delegates, _⟩ => by
      rw [bare, outline, outline, List.length_map, outlineAll_bareAll delegates]

theorem outlineAll_bareAll : (grammars : List Grammar) →
    outlineAll (bareAll grammars) = outlineAll grammars
  | [] => rfl
  | first :: rest => by
      rw [bareAll, outlineAll, outlineAll, outline_bare first, outlineAll_bareAll rest]

end

theorem ext_bare {left right : Grammar} (same : left.bare = right.bare)
    (flat : left.flatten = right.flatten) : left = right := by
  apply ext_outline left right _ flat
  rw [← outline_bare left, ← outline_bare right, same]

/-! ### One declaration -/

/-- The exception on the grammar's own rules only. -/
def declareOwn (grammar : Grammar) (exception : String) : Grammar :=
  { grammar with rules := grammar.rules.map (fun rule => rule.declare exception) }

def ownCoverage (grammar : Grammar) (exception : String) : Coverage :=
  { rules := grammar.rules.length
    delegated := 0
    added := grammar.rules.countP (fun rule => !rule.exceptions.declares exception) }

theorem requireException_eq (grammar : Grammar) (exception : String) :
    grammar.requireException exception =
      Prod.swap ((grammar.declareOwn exception).visitDelegated (declaring exception)
        (grammar.ownCoverage exception)) := by
  unfold requireException declareOwn ownCoverage
  simp only [Rule.require_eq, List.map_map, List.length_map, List.countP_map, Function.comp_def]
  rfl

theorem ruleNames_declareOwn (grammar : Grammar) (exception : String) :
    (grammar.declareOwn exception).ruleNames = grammar.ruleNames :=
  List.map_map

theorem delegatedRules_declareOwn (grammar : Grammar) (exception : String) :
    (grammar.declareOwn exception).delegatedRules = grammar.delegatedRules := by
  rw [delegatedRules_eq, delegatedRules_eq, ruleNames_declareOwn]
  rfl

theorem rules_requireException (grammar : Grammar) (exception : String) :
    (grammar.requireException exception).2.rules =
      grammar.rules.map (fun rule => rule.declare exception) := by
  rw [requireException_eq]
  rfl

theorem delegatedRules_requireException (grammar : Grammar) (exception : String) :
    (grammar.requireException exception).2.delegatedRules =
      grammar.delegatedRules.map (fun rule => rule.declare exception) := by
  have keeps : ∀ rule coverage, (declaring exception rule coverage).1.name = rule.name :=
    fun _ _ => rfl
  rw [requireException_eq, Prod.snd_swap,
    delegatedRules_visitDelegated _ _ _ (names_visitEach _ keeps _ _),
    visitEach_declaring, delegatedRules_declareOwn]

theorem coverage_requireException (grammar : Grammar) (exception : String) :
    (grammar.requireException exception).1 =
      { rules := grammar.rules.length
        delegated := grammar.delegatedRules.length
        added := (grammar.rules ++ grammar.delegatedRules).countP
          (fun rule => !rule.exceptions.declares exception) } := by
  rw [requireException_eq, Prod.fst_swap, state_visitDelegated, visitEach_declaring,
    delegatedRules_declareOwn, List.countP_append]
  simp only [ownCoverage, Nat.zero_add]

/-- Declaring changes the rules that it reaches and leaves all others in place. -/
theorem flatten_requireException (grammar : Grammar) (exception : String) :
    (grammar.requireException exception).2.flatten =
      grammar.flatten.mapIdx (fun position rule =>
        if grammar.Reaches position rule then rule.declare exception else rule) := by
  have parted := (congrArg (List.mapIdx (fun position rule =>
    if grammar.Reaches position rule then rule.declare exception else rule))
      grammar.flatten_eq).trans List.mapIdx_append
  rw [parted, flatten_eq, rules_requireException, requireException_eq, Prod.snd_swap,
    delegates_visitDelegated, visitRules_declaring, ruleNames_declareOwn]
  congr 1
  · refine List.ext_getElem (by rw [List.length_map, List.length_mapIdx]) ?_
    intro position mapped within
    rw [List.length_map] at mapped
    have reached : grammar.Reaches position grammar.rules[position] := Or.inl mapped
    rw [List.getElem_map, List.getElem_mapIdx, if_pos reached]
  · change List.mapIdx _ (grammar.delegates.flatMap flatten) = _
    rw [List.mapIdx_eq_mapIdx_iff]
    intro position within
    simp only [reaches_imported_iff, ite_not]
    rfl

/-! ### Two declarations -/

/-- A second declaration reaches what the first one did. -/
theorem flatten_requireException_twice (grammar : Grammar) (first second : String) :
    ((grammar.requireException first).2.requireException second).2.flatten =
      grammar.flatten.mapIdx (fun position rule =>
        if grammar.Reaches position rule then (rule.declare first).declare second else rule) := by
  rw [flatten_requireException, flatten_requireException, List.mapIdx_mapIdx,
    List.mapIdx_eq_mapIdx_iff]
  intro position within
  -- The first run keeps all names, so it leaves the same places to be reached.
  have alike (rule : Rule) (named : rule.name = grammar.flatten[position].name) :
      (grammar.requireException first).2.Reaches position rule ↔
        grammar.Reaches position grammar.flatten[position] :=
    reaches_of_bare_eq (grammar.bare_requireException first) named
  rw [Function.comp_apply]
  by_cases reached : grammar.Reaches position grammar.flatten[position]
  · have again := (alike (grammar.flatten[position].declare first) rfl).mpr reached
    rw [if_pos reached, if_pos reached, if_pos again]
  · have passed := mt (alike grammar.flatten[position] rfl).mp reached
    rw [if_neg reached, if_neg passed, if_neg reached]

theorem requireException_idempotent (grammar : Grammar) (exception : String) :
    ((grammar.requireException exception).2.requireException exception).2 =
      (grammar.requireException exception).2 := by
  apply ext_bare ((grammar.requireException exception).2.bare_requireException exception)
  rw [flatten_requireException_twice, flatten_requireException]
  simp only [Rule.declare_declare]

theorem requireException_comm (grammar : Grammar) (first second : String) :
    ((grammar.requireException first).2.requireException second).2 =
      ((grammar.requireException second).2.requireException first).2 := by
  apply ext_bare
  · simp only [bare_requireException]
  · rw [flatten_requireException_twice, flatten_requireException_twice]
    simp only [Rule.declare_comm]

/-- What a name stands for is one of the grammar's own rules or a delegated one. -/
theorem mem_of_resolveRule? {grammar : Grammar} {name : String} {rule : Rule}
    (resolved : grammar.resolveRule? name = some rule) :
    rule ∈ grammar.rules ++ grammar.delegatedRules := by
  unfold resolveRule? rule? at resolved
  split at resolved
  · rename_i own
    rw [Option.some.inj resolved] at own
    exact List.mem_append_left _ (List.mem_of_find?_eq_some own)
  · exact List.mem_append_right _ (List.mem_of_find?_eq_some resolved)

theorem declares_of_reached {grammar : Grammar} {exception : String} {rule : Rule}
    (member : rule ∈ (grammar.requireException exception).2.rules ++
      (grammar.requireException exception).2.delegatedRules) :
    rule.exceptions.declares exception = true := by
  rw [rules_requireException, delegatedRules_requireException, ← List.map_append] at member
  obtain ⟨old, _, same⟩ := List.mem_map.mp member
  rw [← same]
  exact old.declares_declare exception

/-- Declaring an exception on a grammar is complete and exact: every rule of its own and every rule
that a name can stand for declares the exception afterwards; the rules reached have it in addition
to what they had, at their places in the tree; every other rule is as it was, and nothing but
exceptions has changed at all.  What was reached is counted, and how much of it was new.  Declaring
the same again finds nothing new and changes nothing, and the order of two declarations is lost. -/
theorem requireException_exact (grammar : Grammar) (exception : String) :
    (∀ name rule, (grammar.requireException exception).2.resolveRule? name = some rule →
        rule.exceptions.declares exception = true) ∧
      (∀ rule ∈ (grammar.requireException exception).2.rules,
        rule.exceptions.declares exception = true) ∧
      (grammar.requireException exception).2.flatten =
        grammar.flatten.mapIdx (fun position rule =>
          if grammar.Reaches position rule then
            { rule with exceptions := rule.exceptions.insert exception }
          else rule) ∧
      (grammar.requireException exception).2.rules ++
          (grammar.requireException exception).2.delegatedRules =
        (grammar.rules ++ grammar.delegatedRules).map (fun rule =>
          { rule with exceptions := rule.exceptions.insert exception }) ∧
      (grammar.requireException exception).2.bare = grammar.bare ∧
      (grammar.requireException exception).1 =
        { rules := grammar.rules.length
          delegated := grammar.delegatedRules.length
          added := (grammar.rules ++ grammar.delegatedRules).countP
            (fun rule => !rule.exceptions.declares exception) } ∧
      ((grammar.requireException exception).2.requireException exception).1.added = 0 ∧
      ((grammar.requireException exception).2.requireException exception).2 =
        (grammar.requireException exception).2 ∧
      ∀ other, ((grammar.requireException exception).2.requireException other).2 =
        ((grammar.requireException other).2.requireException exception).2 := by
  refine ⟨?_, ?_, grammar.flatten_requireException exception, ?_,
    grammar.bare_requireException exception, grammar.coverage_requireException exception, ?_,
    grammar.requireException_idempotent exception, grammar.requireException_comm exception⟩
  · intro name rule resolved
    exact declares_of_reached (mem_of_resolveRule? resolved)
  · intro rule member
    exact declares_of_reached (List.mem_append_left _ member)
  · rw [rules_requireException, delegatedRules_requireException, ← List.map_append]
    rfl
  · rw [coverage_requireException]
    apply List.countP_eq_zero.mpr
    intro rule member
    rw [declares_of_reached member]
    exact Bool.false_ne_true

end Grammar

end LiteralGrammar
