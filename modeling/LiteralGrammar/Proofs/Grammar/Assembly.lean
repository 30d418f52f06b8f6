/-
Grammars by the way they were made.

A built grammar has the vocabulary of everything below it, so it knows every
literal of its tree.  Changes made in place afterwards, to own or to delegated
rules, never touch a vocabulary; a grammar assembled by building and changing
in any order has a well-formed one, though it may not know all its literals.
-/

import LiteralGrammar.Grammar.Draft
import LiteralGrammar.Grammar.Flatten
import LiteralGrammar.Grammar.Delegation
import LiteralGrammar.Proofs.Fault
import LiteralGrammar.Proofs.Vocabulary.Numbering

namespace LiteralGrammar

namespace Grammar

/-- A grammar built from declared tokens, rules and grammars that were built alike. -/
inductive Built : Grammar → Prop where
  | intro {grammar : Grammar} (tokens : List String)
      (delegates : ∀ delegate ∈ grammar.delegates, Built delegate)
      (defined : Vocabulary.ofNames
        (GrammarDraft.definedNames tokens grammar.rules grammar.delegates) =
          .ok grammar.vocabulary) : Built grammar

/-- A change made in place, to a rule of the grammar's own or to those it takes over. -/
inductive Edit : Grammar → Grammar → Prop where
  | replace (grammar : Grammar) (index : Nat) (rule : Rule) :
      Edit grammar (grammar.replaceRule index rule)
  | swap (grammar : Grammar) (first second : Nat) :
      Edit grammar (grammar.swapRules first second)
  | require {grammar changed : Grammar} {index : Nat} {exception : String} {added : Bool}
      (declared : grammar.requireAt? index exception = some (added, changed)) :
      Edit grammar changed
  | visit {State : Type} (visitor : Visitor State) (grammar : Grammar) (state : State) :
      Edit grammar (grammar.visitDelegated visitor state).1

/-- A grammar made by building and changing in any order, at every level of its tree. -/
inductive Assembled : Grammar → Prop where
  | built {grammar : Grammar} (tokens : List String)
      (delegates : ∀ delegate ∈ grammar.delegates, Assembled delegate)
      (defined : Vocabulary.ofNames
        (GrammarDraft.definedNames tokens grammar.rules grammar.delegates) =
          .ok grammar.vocabulary) : Assembled grammar
  | edited {grammar changed : Grammar} (assembled : Assembled grammar)
      (edit : Edit grammar changed) : Assembled changed

theorem Built.assembled {grammar : Grammar} (built : Built grammar) : Assembled grammar := by
  induction built with
  | intro tokens _ defined ih => exact Assembled.built tokens ih defined

/-! ### Vocabularies -/

theorem Edit.vocabulary_eq {grammar changed : Grammar} (edit : Edit grammar changed) :
    changed.vocabulary = grammar.vocabulary := by
  cases edit with
  | replace index rule => rfl
  | swap first second =>
      unfold swapRules
      split <;> rfl
  | require declared =>
      rcases Option.map_eq_some_iff.mp declared with ⟨rule, _, same⟩
      cases same
      rfl
  | visit visitor state => rfl

theorem Assembled.wellFormed {grammar : Grammar} (assembled : Assembled grammar) :
    grammar.vocabulary.WellFormed := by
  induction assembled with
  | built _ _ defined => exact Vocabulary.wellFormed_of_ofNames defined
  | edited _ edit ih =>
      rw [edit.vocabulary_eq]
      exact ih

theorem Built.wellFormed {grammar : Grammar} (built : Built grammar) :
    grammar.vocabulary.WellFormed :=
  built.assembled.wellFormed

/-- A built grammar knows every literal of its tree, hidden rules included. -/
theorem Built.literal_mem_names {grammar : Grammar} (built : Built grammar) {rule : Rule}
    (present : rule ∈ grammar.flatten) {element : Element} (used : element ∈ rule.elements) :
    element.literal ∈ grammar.vocabulary.names := by
  induction built with
  | @intro grammar tokens _ defined ih =>
      rw [Vocabulary.mem_names_ofNames_iff defined]
      rw [flatten_eq] at present
      unfold GrammarDraft.definedNames
      rcases List.mem_append.mp present with own | imported
      · apply List.mem_append_left
        apply List.mem_append_right
        exact List.mem_flatMap.mpr ⟨rule, own, List.mem_map_of_mem used⟩
      · apply List.mem_append_right
        rcases List.mem_flatMap.mp imported with ⟨delegate, member, inside⟩
        exact List.mem_flatMap.mpr ⟨delegate, member, ih delegate member inside⟩

theorem Built.of_contains {outer inner : Grammar} (built : outer.Built)
    (contains : outer.Contains inner) : inner.Built := by
  induction contains with
  | self => exact built
  | imported member _ ih =>
      cases built with
      | intro _ delegates _ => exact ih (delegates _ member)

/-- Whatever is named inside a built grammar has a name in the grammar. -/
theorem Built.mem_names_of_contains {outer inner : Grammar} (built : outer.Built)
    (contains : outer.Contains inner) {name : String} (member : name ∈ inner.vocabulary.names) :
    name ∈ outer.vocabulary.names := by
  induction contains with
  | self => exact member
  | @imported outer middle inner direct _ ih =>
      cases built with
      | intro tokens delegates defined =>
          rw [Vocabulary.mem_names_ofNames_iff defined]
          apply List.mem_append_right
          exact List.mem_flatMap.mpr ⟨middle, direct, ih (delegates middle direct) member⟩

end Grammar

/-! ### Drafts -/

namespace GrammarDraft

open Grammar

mutual

theorem built_of_build : (draft : GrammarDraft) → {grammar : Grammar} →
    draft.build = .ok grammar → Built grammar
  | ⟨_, _, tokens, ruleDrafts, delegateDrafts⟩, grammar, made => by
      rw [build] at made
      rcases bind_eq_ok_iff.mp made with ⟨rules, _, afterRules⟩
      rcases bind_eq_ok_iff.mp afterRules with ⟨delegates, imported, afterDelegates⟩
      rcases bind_eq_ok_iff.mp afterDelegates with ⟨vocabulary, defined, last⟩
      cases last
      exact Built.intro tokens (built_of_buildAll delegateDrafts imported) defined

theorem built_of_buildAll : (drafts : List GrammarDraft) → {grammars : List Grammar} →
    buildAll drafts = .ok grammars → ∀ grammar ∈ grammars, Built grammar
  | [], grammars, made => by
      cases made
      intro grammar member
      cases member
  | first :: rest, grammars, made => by
      rw [buildAll] at made
      rcases bind_eq_ok_iff.mp made with ⟨head, headMade, afterHead⟩
      rcases bind_eq_ok_iff.mp afterHead with ⟨later, laterMade, last⟩
      cases last
      exact List.forall_mem_cons.mpr
        ⟨built_of_build first headMade, built_of_buildAll rest laterMade⟩

end

end GrammarDraft

end LiteralGrammar
