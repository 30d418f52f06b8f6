/-
Texts that a rule stands for are recognized.

In a grammar that was built whole, with values that tell its literals apart, a
phrase of an alternative is read as the tokens it was put together from.  The
lowest alternative with these tokens as a word is predicted, and matched to its
end unless one of its loops starves a later element.
-/

import LiteralGrammar.Proofs.Grammar.Assembly
import LiteralGrammar.Proofs.Grammar.Resolution
import LiteralGrammar.Proofs.Recognition.Outcome
import LiteralGrammar.Proofs.Recognition.Phrases
import Mathlib.Data.List.Pairwise

namespace LiteralGrammar

/-! ### Values that tell literals apart -/

/-- The characters that a literal stands for, if it can be decoded and there are any. -/
def Literal.visibleValue? (literal : String) : Option (List Char) :=
  match Literal.decode literal with
  | .ok value => if value = "" then none else some value.toList
  | .error _ => none

/-- The values that a lexer for the vocabulary looks for, in the order of definition. -/
def Vocabulary.visibleValues (vocabulary : Vocabulary) : List (List Char) :=
  vocabulary.literals.filterMap (fun literal => Literal.visibleValue? literal.2)

/-- Texts that differ, and of which neither is the beginning of the other. -/
def Unlike (left right : List Char) : Prop :=
  ¬left <+: right ∧ ¬right <+: left

instance (left right : List Char) : Decidable (Unlike left right) :=
  inferInstanceAs (Decidable (¬left <+: right ∧ ¬right <+: left))

namespace Lexer

theorem values_decodeLiterals {literals : List (TokenType × String)}
    {decoded : List (TokenType × List Char)} (read : decodeLiterals literals = .ok decoded) :
    (decoded.filter (fun literal => !literal.2.isEmpty)).map Prod.snd =
      literals.filterMap (fun literal => Literal.visibleValue? literal.2) := by
  induction literals generalizing decoded with
  | nil =>
      cases read
      rfl
  | cons literal rest ih =>
      rcases decodeLiterals_cons_eq_ok_iff.mp read with ⟨value, later, valueRead, others, same⟩
      rw [same, List.filterMap_cons]
      unfold Literal.visibleValue?
      rw [valueRead]
      by_cases empty : value = ""
      · rw [List.filter_cons_of_neg (by simp [empty])]
        simp only [if_pos empty]
        exact ih others
      · rw [List.filter_cons_of_pos (by simp [empty]), List.map_cons]
        simp only [if_neg empty]
        rw [ih others]
        rfl

theorem prefixFree_of_visibleValues {vocabulary : Vocabulary} {lexer : Lexer}
    (made : ofVocabulary vocabulary = .ok lexer)
    (apart : vocabulary.visibleValues.Pairwise Unlike) : lexer.PrefixFree := by
  rcases ofVocabulary_eq_ok_iff.mp made with ⟨decoded, read, same⟩
  unfold Vocabulary.visibleValues at apart
  rw [← values_decodeLiterals read, ← same, List.pairwise_map] at apart
  have symmetric : Std.Symm (fun left right : TokenType × List Char =>
      Unlike left.2 right.2) := ⟨fun _ _ unlike => ⟨unlike.2, unlike.1⟩⟩
  intro left leftMember right rightMember start
  apply Classical.byContradiction
  intro different
  exact (apart.forall leftMember rightMember different).1 start

end Lexer

/-! ### From a phrase to tokens -/

/-- A grammar that was built whole knows every element of a rule that a name stands for. -/
theorem Grammar.Built.knows_of_resolveRule? {grammar : Grammar} (built : grammar.Built)
    {name : String} {rule : Rule} (resolved : grammar.resolveRule? name = some rule)
    {alternative : Alternative} (listed : alternative ∈ rule.alternatives) :
    ∀ element ∈ alternative, grammar.vocabulary.knows element = true := by
  intro element member
  have used : element ∈ rule.elements := List.mem_flatten.mpr ⟨alternative, listed, member⟩
  exact decide_eq_true (built.literal_mem_names (mem_flatten_of_resolveRule? resolved) used)

theorem Recognizer.ofGrammar_exists {grammar : Grammar}
    (decodes : ∀ literal ∈ grammar.vocabulary.literals,
      ∃ value, Literal.decode literal.2 = .ok value) :
    ∃ recognizer, Recognizer.ofGrammar grammar = .ok recognizer := by
  obtain ⟨decoded, read⟩ := Lexer.decodeLiterals_exists decodes
  let lexer : Lexer := { literals := decoded.filter (fun literal => !literal.2.isEmpty) }
  have made : Lexer.ofVocabulary grammar.vocabulary = .ok lexer :=
    Lexer.ofVocabulary_eq_ok_iff.mpr ⟨decoded, read, rfl⟩
  exact ⟨{ grammar := grammar, lexer := lexer },
    Recognizer.ofGrammar_eq_ok_iff.mpr ⟨rfl, made⟩⟩

/-- A phrase is read as tokens whose types are a word of the slots, and nothing is reported. -/
theorem tokenize_phrase {vocabulary : Vocabulary} {lexer : Lexer}
    (formed : vocabulary.WellFormed) (made : Lexer.ofVocabulary vocabulary = .ok lexer)
    (free : lexer.PrefixFree) {alternative : Alternative}
    (known : ∀ element ∈ alternative, vocabulary.knows element = true)
    (visible : ∀ element ∈ alternative, element.Visible) {text : List Char}
    (phrase : Phrase alternative text) :
    (lexer.tokenize (String.ofList text)).diagnostics = [] ∧
      Decision.Word (alternative.map (Slot.ofElement vocabulary))
        (lexer.tokenize (String.ofList text)).stream.types := by
  obtain ⟨shown, present, same, word⟩ := word_of_phrase formed made known visible phrase
  obtain ⟨silent, types⟩ :=
    Lexer.tokenize_flatMap (Lexer.solid_of_ofVocabulary made) free present
  rw [same] at silent types
  rw [types]
  exact ⟨silent, word⟩

/-- Elements that starve by the types of known literals starve by the literals. -/
theorem starves_of_slots {vocabulary : Vocabulary} (formed : vocabulary.WellFormed)
    {alternative : Alternative}
    (known : ∀ element ∈ alternative, vocabulary.knows element = true)
    (starves : Starves (Decision.repetitions (alternative.map (Slot.ofElement vocabulary)))) :
    Starves alternative.repetitions := by
  unfold Decision.repetitions at starves
  rw [List.map_map] at starves
  have typed {item : String × Repetition} (member : item ∈ alternative.repetitions) :
      ∃ type, vocabulary.tokenType? item.1 = some type := by
    rcases List.mem_map.mp member with ⟨element, present, same⟩
    rw [← same]
    exact (formed.mem_names_iff _).mp (of_decide_eq_true (known element present))
  refine starves_of_map
    (fun name => (vocabulary.tokenType? name).getD TokenType.undefined) ?_ ?_
  · intro left leftMember right rightMember same
    obtain ⟨leftType, leftFound⟩ := typed leftMember
    obtain ⟨rightType, rightFound⟩ := typed rightMember
    rw [leftFound, rightFound] at same
    change leftType = rightType at same
    rw [same] at leftFound
    exact formed.tokenType?_injective leftFound rightFound
  · unfold Alternative.repetitions
    rw [List.map_map]
    exact starves

/-! ### From tokens to an outcome -/

/-- When all tokens together are a word of some alternative, the lowest such alternative is
settled on, and matched to its end if none of its slots is starved. -/
theorem settle_of_finished {vocabulary : Vocabulary} (formed : vocabulary.WellFormed)
    {rule : Rule} {stream : TokenStream} (ended : stream.Ended) {chosen : Nat}
    (member : chosen ∈ (Decision.ofRule vocabulary rule).finished stream.types) :
    ∃ settled predicted best,
      Recognizer.settle vocabulary (Decision.ofRule vocabulary rule) stream = .ok settled ∧
      settled.alternative = some (predicted + 1) ∧
      (∀ diagnostic ∈ settled.diagnostics, diagnostic.problem ≠ .noViableCharacter) ∧
      IsLeast ((Decision.ofRule vocabulary rule).finished stream.types) predicted ∧
      rule.alternatives[predicted]? = some best ∧
      (¬Starves (Decision.repetitions (best.map (Slot.ofElement vocabulary))) →
        settled.diagnostics = []) := by
  obtain ⟨predicted, answer, least⟩ :=
    Decision.predict_of_finished (Decision.endFree_ofRule formed rule) ended member
  rcases (Decision.mem_finished_ofRule_iff _ _ _ _).mp least.1 with ⟨best, listed, word⟩
  have slots := Decision.slots_ofRule vocabulary listed
  have apart := (Decision.endFree_map_ofElement formed best).apart ended
  have ends : Decision.matchSlots ((Decision.ofRule vocabulary rule).slots predicted) stream ≠
      .endless := by
    rw [slots]
    exact Decision.matchFrom_ne_endless apart
  obtain ⟨settled, found, number, blameless, complete⟩ :=
    Recognizer.settle_of_predict vocabulary answer ends
  refine ⟨settled, predicted, best, found, number, blameless, least, listed, ?_⟩
  intro fed
  apply complete
  rw [slots]
  exact Decision.matchFrom_complete apart fed word List.prefix_rfl

/-- Recognition is complete: a phrase of an alternative is read without an error of the lexer, the
lowest alternative that has its tokens as a word is predicted, and recognition succeeds unless a
loop of that alternative starves a later element. -/
theorem parse_complete {draft : GrammarDraft} {grammar : Grammar}
    (made : draft.build = .ok grammar)
    (decodes : ∀ literal ∈ grammar.vocabulary.literals,
      ∃ value, Literal.decode literal.2 = .ok value)
    (apart : grammar.vocabulary.visibleValues.Pairwise Unlike)
    {name : String} {rule : Rule} (resolved : grammar.resolveRule? name = some rule)
    {chosen : Nat} {alternative : Alternative}
    (listed : rule.alternatives[chosen]? = some alternative)
    (visible : ∀ element ∈ alternative, element.Visible)
    {text : List Char} (phrase : Phrase alternative text) :
    ∃ recognizer outcome predicted best,
      Recognizer.ofGrammar grammar = .ok recognizer ∧
      recognizer.parse name (String.ofList text) = .ok outcome ∧
      (∀ diagnostic ∈ outcome.diagnostics, diagnostic.problem ≠ .noViableCharacter) ∧
      outcome.alternative = some (predicted + 1) ∧
      IsLeast ((Decision.ofRule grammar.vocabulary rule).finished
        (recognizer.lexer.tokenize (String.ofList text)).stream.types) predicted ∧
      predicted ≤ chosen ∧
      rule.alternatives[predicted]? = some best ∧
      (¬Starves best.repetitions → outcome.isSuccess = true) := by
  have built := GrammarDraft.built_of_build draft made
  have formed := built.wellFormed
  obtain ⟨recognizer, ready⟩ := Recognizer.ofGrammar_exists decodes
  rcases Recognizer.ofGrammar_eq_ok_iff.mp ready with ⟨same, lexerMade⟩
  have knows {index : Nat} {other : Alternative} (found : rule.alternatives[index]? = some other) :=
    built.knows_of_resolveRule? resolved (List.mem_of_getElem? found)
  obtain ⟨silent, word⟩ := tokenize_phrase formed lexerMade
    (Lexer.prefixFree_of_visibleValues lexerMade apart) (knows listed) visible phrase
  have member := (Decision.mem_finished_ofRule_iff _ _ _ _).mpr ⟨alternative, listed, word⟩
  obtain ⟨settled, predicted, best, found, number, blameless, least, bestListed, complete⟩ :=
    settle_of_finished formed (Lexer.tokenize_ended formed lexerMade _) member
  have parsed : recognizer.parse name (String.ofList text) = .ok settled := by
    rw [Recognizer.parse_eq_ok_iff, same]
    refine ⟨rule, settled, resolved, found, ?_⟩
    rw [silent, List.nil_append]
  refine ⟨recognizer, settled, predicted, best, ready, parsed, blameless, number, least,
    least.2 member, bestListed, ?_⟩
  intro fed
  unfold Outcome.isSuccess
  rw [complete (fun starves => fed (starves_of_slots formed (knows bestListed) starves))]
  rfl

private def bracketed : Alternative :=
  [⟨"'['", .once⟩, ⟨"'a'", .zeroOrMore⟩, ⟨"']'", .once⟩]

/-- A rule whose first alternative hides the second on all but the empty brackets. -/
private def bracketRule : Rule :=
  { name := "list"
    alternatives := [[⟨"'['", .once⟩, ⟨"'a'", .oneOrMore⟩, ⟨"']'", .once⟩], bracketed]
    exceptions := ExceptionSet.empty }

private def importing : GrammarDraft :=
  { name := "Outer"
    kind := .parser
    tokens := ["ID", "'b'"]
    rules := []
    delegates :=
      [{ name := "Inner"
         kind := .parser
         tokens := []
         rules :=
           [{ name := "list"
              alternatives := bracketRule.alternatives.map Alternative.repetitions
              exceptions := [] }]
         delegates := [] }] }

theorem parse_complete_imported :
    ∃ grammar recognizer outcome predicted best, importing.build = .ok grammar ∧
      Recognizer.ofGrammar grammar = .ok recognizer ∧
      recognizer.parse "list" "[aa]" = .ok outcome ∧
      (∀ diagnostic ∈ outcome.diagnostics, diagnostic.problem ≠ .noViableCharacter) ∧
      outcome.alternative = some (predicted + 1) ∧
      IsLeast ((Decision.ofRule grammar.vocabulary bracketRule).finished
        (recognizer.lexer.tokenize "[aa]").stream.types) predicted ∧
      predicted ≤ 1 ∧
      bracketRule.alternatives[predicted]? = some best ∧
      ¬Starves best.repetitions ∧ outcome.isSuccess = true := by
  obtain ⟨grammar, made, resolved, literals, apart⟩ :
      ∃ grammar, importing.build = .ok grammar ∧
        grammar.resolveRule? "list" = some bracketRule ∧
        grammar.vocabulary.literals =
          [(TokenType.ofIndex 1, "'b'"), (TokenType.ofIndex 2, "'['"),
            (TokenType.ofIndex 3, "'a'"), (TokenType.ofIndex 4, "']'")] ∧
        grammar.vocabulary.visibleValues.Pairwise Unlike :=
    ⟨_, rfl, rfl, rfl, by decide⟩
  have decodes : ∀ literal ∈ grammar.vocabulary.literals,
      ∃ value, Literal.decode literal.2 = .ok value := by
    rw [literals]
    simp only [List.forall_mem_cons]
    exact ⟨⟨"b", rfl⟩, ⟨"[", rfl⟩, ⟨"a", rfl⟩, ⟨"]", rfl⟩, List.forall_mem_nil _⟩
  have listed : bracketRule.alternatives[1]? = some bracketed := rfl
  have visible : ∀ element ∈ bracketed, element.Visible := by
    simp only [bracketed, List.forall_mem_cons]
    exact ⟨⟨"[", rfl, by decide⟩, ⟨"a", rfl, by decide⟩, ⟨"]", rfl, by decide⟩,
      List.forall_mem_nil _⟩
  have phrase : Phrase bracketed ['[', 'a', 'a', ']'] :=
    Phrase.repeated _ "[" 0 rfl rfl (Phrase.repeated _ "a" 1 rfl trivial
      (Phrase.repeated _ "]" 0 rfl rfl Phrase.nil))
  obtain ⟨recognizer, outcome, predicted, best, ready, parsed, blameless, number, least, atMost,
      bestListed, success⟩ :=
    parse_complete made decodes apart resolved listed visible phrase
  have allFed : ∀ other ∈ bracketRule.alternatives, ¬Starves other.repetitions := by decide
  have fed := allFed best (List.mem_of_getElem? bestListed)
  exact ⟨grammar, recognizer, outcome, predicted, best, made, ready, parsed, blameless, number,
    least, atMost, bestListed, fed, success fed⟩

end LiteralGrammar
