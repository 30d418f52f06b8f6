/-
The vocabulary of a built grammar as a merge of what lies below it.

Declared tokens come first, then the literals of the grammar's own rules, then
whatever each imported grammar names, in the order in which they are imported;
a name stands where it occurs first.  An imported grammar was merged in the same
way, so nothing in the tree is without a type, whatever numbers it had there.
-/

import LiteralGrammar.Decision.Basic
import LiteralGrammar.Proofs.Grammar.Assembly
import LiteralGrammar.Proofs.Grammar.Resolution
import LiteralGrammar.Proofs.Vocabulary.History

namespace LiteralGrammar

namespace Grammar

/-- A literal of a built tree has one of the types for tokens of its own in the whole grammar. -/
theorem Built.tokenType?_of_literal {grammar : Grammar} (built : grammar.Built) {rule : Rule}
    (present : rule ∈ grammar.flatten) {element : Element} (used : element ∈ rule.elements) :
    ∃ type, grammar.vocabulary.tokenType? element.literal = some type ∧ 4 ≤ type.raw.toInt := by
  obtain ⟨type, known, place⟩ :=
    built.wellFormed.tokenType?_of_mem (built.literal_mem_names present used)
  exact ⟨type, known, by omega⟩

/-- The slots of a rule that a name of a built grammar stands for all have such a type. -/
theorem Built.type_of_slot {grammar : Grammar} (built : grammar.Built) {name : String}
    {rule : Rule} (resolved : grammar.resolveRule? name = some rule) {slots : List Slot}
    (listed : slots ∈ (Decision.ofRule grammar.vocabulary rule).alternatives) {slot : Slot}
    (member : slot ∈ slots) : 4 ≤ slot.type.raw.toInt := by
  obtain ⟨alternative, given, made⟩ := List.mem_map.mp listed
  rw [← made] at member
  obtain ⟨element, inside, same⟩ := List.mem_map.mp member
  have used : element ∈ rule.elements := List.mem_flatten.mpr ⟨alternative, given, inside⟩
  obtain ⟨type, known, least⟩ :=
    built.tokenType?_of_literal (mem_flatten_of_resolveRule? resolved) used
  rw [← same, Slot.type_ofElement known]
  exact least

end Grammar

namespace GrammarDraft

theorem vocabulary_of_build {draft : GrammarDraft} {grammar : Grammar}
    (made : draft.build = .ok grammar) :
    Vocabulary.ofNames (definedNames draft.tokens grammar.rules grammar.delegates) =
      .ok grammar.vocabulary := by
  cases draft with
  | mk name kind tokens rules delegates =>
      rw [build] at made
      obtain ⟨_, _, afterRules⟩ := bind_eq_ok_iff.mp made
      obtain ⟨_, _, afterDelegates⟩ := bind_eq_ok_iff.mp afterRules
      obtain ⟨vocabulary, defined, last⟩ := bind_eq_ok_iff.mp afterDelegates
      cases last
      exact defined

/-- A draft is built unless some literal in it has no delimiters or there are too many names. -/
theorem build_exists_iff (draft : GrammarDraft) :
    (∃ grammar, draft.build = .ok grammar) ↔
      ∃ rules delegates, buildRules draft.rules = .ok rules ∧
        buildAll draft.delegates = .ok delegates ∧
        (definedNames draft.tokens rules delegates).eraseDups.length ≤ TokenType.capacity := by
  cases draft with
  | mk name kind tokens rules delegates =>
      simp only [build, bind_eq_ok_iff]
      constructor
      · intro ⟨grammar, rulesMade, own, delegatesMade, imported, vocabulary, defined, _⟩
        exact ⟨rulesMade, delegatesMade, own, imported,
          (Vocabulary.ofNames_exists_iff _).mp ⟨vocabulary, defined⟩⟩
      · intro ⟨rulesMade, delegatesMade, own, imported, room⟩
        obtain ⟨vocabulary, defined⟩ := (Vocabulary.ofNames_exists_iff _).mpr room
        exact ⟨_, rulesMade, own, delegatesMade, imported, vocabulary, defined, rfl⟩

/-- Building merges vocabularies: declared tokens, literals of own rules and the names of each
imported grammar, each name where it occurs first and with the type of that place.  So every
literal in the tree, of hidden rules too, has a type of four or more, no two names have the same,
and the decision of a rule that a name stands for never has to use the undefined one.  Nothing but
a literal without delimiters or a lack of types keeps a draft from being built. -/
theorem build_merges (draft : GrammarDraft) :
    ((∃ grammar, draft.build = .ok grammar) ↔
      ∃ rules delegates, buildRules draft.rules = .ok rules ∧
        buildAll draft.delegates = .ok delegates ∧
        (definedNames draft.tokens rules delegates).eraseDups.length ≤ TokenType.capacity) ∧
    ∀ grammar, draft.build = .ok grammar →
      grammar.vocabulary.names =
        (draft.tokens ++
          grammar.rules.flatMap (fun rule => rule.elements.map Element.literal) ++
          grammar.delegates.flatMap (fun delegate => delegate.vocabulary.names)).eraseDups ∧
      (∀ name ∈ grammar.vocabulary.names, ∃ type,
        grammar.vocabulary.tokenType? name = some type ∧
          type.raw.toInt = 4 + (grammar.vocabulary.names.idxOf name : Int)) ∧
      (∀ rule ∈ grammar.flatten, ∀ element ∈ rule.elements, ∃ type,
        grammar.vocabulary.tokenType? element.literal = some type ∧ 4 ≤ type.raw.toInt) ∧
      (∀ left right type, grammar.vocabulary.tokenType? left = some type →
        grammar.vocabulary.tokenType? right = some type → left = right) ∧
      ∀ name rule, grammar.resolveRule? name = some rule →
        ∀ slots ∈ (Decision.ofRule grammar.vocabulary rule).alternatives, ∀ slot ∈ slots,
          slot.type ≠ TokenType.undefined := by
  refine ⟨draft.build_exists_iff, ?_⟩
  intro grammar made
  have built := built_of_build draft made
  have formed := built.wellFormed
  refine ⟨Vocabulary.names_ofNames (vocabulary_of_build made),
    fun name member => formed.tokenType?_of_mem member,
    fun rule present element used => built.tokenType?_of_literal present used,
    fun left right type => formed.tokenType?_injective, ?_⟩
  intro name rule resolved slots listed slot member same
  have least := built.type_of_slot resolved listed member
  rw [same] at least
  exact absurd least (by decide)

private def nested : GrammarDraft :=
  { name := "Outer"
    kind := .combined
    tokens := ["ID"]
    rules := [{ name := "run", alternatives := [[("'a'", .oneOrMore)], []], exceptions := [] }]
    delegates :=
      [{ name := "Middle"
         kind := .parser
         tokens := ["NUM", "ID"]
         rules :=
           [{ name := "run", alternatives := [[("'b'", .once)]], exceptions := [] },
            { name := "walk"
              alternatives := [[("'c'", .once), ("'a'", .once)]]
              exceptions := [] }]
         delegates :=
           [{ name := "Inner"
              kind := .parser
              tokens := []
              rules := [{ name := "walk", alternatives := [[("'d'", .once)]], exceptions := [] }]
              delegates := [] }] }] }

theorem build_merges_nested :
    ∃ grammar, nested.build = .ok grammar ∧
      grammar.vocabulary.names = ["ID", "'a'", "NUM", "'b'", "'c'", "'d'"] ∧
      grammar.delegates.map (fun delegate => delegate.vocabulary.names) =
        [["NUM", "ID", "'b'", "'c'", "'a'", "'d'"]] ∧
      (∀ rule ∈ grammar.flatten, ∀ element ∈ rule.elements, ∃ type,
        grammar.vocabulary.tokenType? element.literal = some type ∧ 4 ≤ type.raw.toInt) := by
  obtain ⟨grammar, made, names, imported⟩ :
      ∃ grammar, nested.build = .ok grammar ∧
        grammar.vocabulary.names = ["ID", "'a'", "NUM", "'b'", "'c'", "'d'"] ∧
        grammar.delegates.map (fun delegate => delegate.vocabulary.names) =
          [["NUM", "ID", "'b'", "'c'", "'a'", "'d'"]] :=
    ⟨_, rfl, rfl, rfl⟩
  exact ⟨grammar, made, names, imported, ((build_merges nested).2 grammar made).2.2.1⟩

end GrammarDraft

end LiteralGrammar
