/-
Recognition taken apart into its stages.

A recognizer exists when its lexer does.  An outcome consists of what the lexer
reports and what prediction and matching settle on; it is a success when the
lexer is silent and the alternative predicted is matched to its end.
-/

import LiteralGrammar.Proofs.Decision.Greedy
import LiteralGrammar.Proofs.Decision.Prediction
import LiteralGrammar.Proofs.Fault
import LiteralGrammar.Proofs.Vocabulary.Numbering
import LiteralGrammar.Recognizer

namespace LiteralGrammar

/-! ### Slots of a rule -/

namespace Decision

theorem slots_ofRule (vocabulary : Vocabulary) {rule : Rule} {chosen : Nat}
    {alternative : Alternative} (listed : rule.alternatives[chosen]? = some alternative) :
    (ofRule vocabulary rule).slots chosen = alternative.map (Slot.ofElement vocabulary) := by
  unfold slots ofRule
  rw [List.getElem?_map, listed]
  rfl

theorem length_ofRule (vocabulary : Vocabulary) (rule : Rule) :
    (ofRule vocabulary rule).alternatives.length = rule.alternatives.length :=
  List.length_map _

/-- No literal has the type of the end of the input, not even one that is unknown. -/
theorem endFree_map_ofElement {vocabulary : Vocabulary} (formed : vocabulary.WellFormed)
    (alternative : Alternative) : EndFree (alternative.map (Slot.ofElement vocabulary)) := by
  intro slot member same
  rcases List.mem_map.mp member with ⟨element, _, made⟩
  rw [← made] at same
  change (vocabulary.tokenType? element.literal).getD TokenType.undefined = _ at same
  cases found : vocabulary.tokenType? element.literal with
  | none =>
      rw [found] at same
      exact absurd same (by decide)
  | some type =>
      rw [found] at same
      rw [Option.getD_some] at same
      rw [same] at found
      exact formed.tokenType?_ne_endOfInput _ found

theorem endFree_ofRule {vocabulary : Vocabulary} (formed : vocabulary.WellFormed)
    (rule : Rule) : ∀ slots ∈ (ofRule vocabulary rule).alternatives, EndFree slots := by
  intro slots member
  rcases List.mem_map.mp member with ⟨alternative, _, made⟩
  rw [← made]
  exact endFree_map_ofElement formed alternative

theorem mem_finished_ofRule_iff (vocabulary : Vocabulary) (rule : Rule)
    (types : List TokenType) (chosen : Nat) :
    chosen ∈ (ofRule vocabulary rule).finished types ↔
      ∃ alternative, rule.alternatives[chosen]? = some alternative ∧
        Word (alternative.map (Slot.ofElement vocabulary)) types := by
  constructor
  · intro ⟨within, word⟩
    rw [length_ofRule] at within
    have listed := List.getElem?_eq_getElem within
    rw [slots_ofRule vocabulary listed] at word
    exact ⟨_, listed, word⟩
  · intro ⟨alternative, listed, word⟩
    refine ⟨?_, by rwa [slots_ofRule vocabulary listed]⟩
    rw [length_ofRule]
    exact (List.getElem?_eq_some_iff.mp listed).1

/-- What is predicted for a rule is one of its alternatives. -/
theorem exists_alternative_of_predict {vocabulary : Vocabulary}
    (formed : vocabulary.WellFormed) {rule : Rule} {stream : TokenStream}
    (ended : stream.Ended) {chosen : Nat}
    (predicted : (ofRule vocabulary rule).predict stream.tokens = .ok chosen) :
    ∃ alternative, rule.alternatives[chosen]? = some alternative ∧
      (ofRule vocabulary rule).slots chosen = alternative.map (Slot.ofElement vocabulary) := by
  have within := lt_of_predict_eq_ok (endFree_ofRule formed rule) ended predicted
  rw [length_ofRule] at within
  have listed := List.getElem?_eq_getElem within
  exact ⟨_, listed, slots_ofRule vocabulary listed⟩

end Decision

namespace Recognizer

/-! ### Stages -/

theorem ofGrammar_eq_ok_iff {grammar : Grammar} {recognizer : Recognizer} :
    ofGrammar grammar = .ok recognizer ↔
      recognizer.grammar = grammar ∧
        Lexer.ofVocabulary grammar.vocabulary = .ok recognizer.lexer := by
  unfold ofGrammar
  rw [map_eq_ok_iff]
  constructor
  · intro ⟨lexer, made, same⟩
    rw [← same]
    exact ⟨rfl, made⟩
  · intro ⟨same, made⟩
    exact ⟨recognizer.lexer, made, by rw [← same]⟩

theorem parse_eq_ok_iff {recognizer : Recognizer} {name input : String} {outcome : Outcome} :
    recognizer.parse name input = .ok outcome ↔
      ∃ rule settled, recognizer.grammar.resolveRule? name = some rule ∧
        settle recognizer.grammar.vocabulary
            (Decision.ofRule recognizer.grammar.vocabulary rule)
            (recognizer.lexer.tokenize input).stream = .ok settled ∧
        outcome =
          { settled with
            diagnostics :=
              (recognizer.lexer.tokenize input).diagnostics ++ settled.diagnostics } := by
  unfold parse
  cases resolved : recognizer.grammar.resolveRule? name with
  | none =>
      constructor
      · intro impossible
        cases impossible
      · intro ⟨_, _, impossible, _⟩
        cases impossible
  | some rule =>
      simp only [map_eq_ok_iff]
      constructor
      · intro ⟨settled, found, same⟩
        exact ⟨rule, settled, rfl, found, same.symm⟩
      · intro ⟨other, settled, same, found, last⟩
        cases same
        exact ⟨settled, found, last.symm⟩

/-- What is settled is a failed prediction, an alternative matched to its end, or one whose match
fails at a token; there is at most one error, and never one of the lexer. -/
theorem settle_cases {vocabulary : Vocabulary} {decision : Decision} {stream : TokenStream}
    {settled : Outcome} (found : settle vocabulary decision stream = .ok settled) :
    (∃ token, decision.predict stream.tokens = .error token ∧
      settled =
        { alternative := none, diagnostics := [Diagnostic.noViableAlternative token] }) ∨
    ∃ alternative, decision.predict stream.tokens = .ok alternative ∧
      ((∃ consumed,
          Decision.matchSlots (decision.slots alternative) stream = .complete consumed ∧
          settled = { alternative := some (alternative + 1), diagnostics := [] }) ∨
        ∃ place token expected,
          Decision.matchSlots (decision.slots alternative) stream =
            .mismatch place token expected ∧
          settled =
            { alternative := some (alternative + 1)
              diagnostics :=
                [Diagnostic.mismatch token (expectedName vocabulary expected)] }) := by
  unfold settle at found
  cases predicted : decision.predict stream.tokens with
  | error token =>
      simp only [predicted] at found
      cases found
      exact Or.inl ⟨token, rfl, rfl⟩
  | ok alternative =>
      simp only [predicted] at found
      refine Or.inr ⟨alternative, rfl, ?_⟩
      cases result : Decision.matchSlots (decision.slots alternative) stream with
      | complete consumed =>
          simp only [result] at found
          cases found
          exact Or.inl ⟨consumed, rfl, rfl⟩
      | mismatch place token expected =>
          simp only [result] at found
          cases found
          exact Or.inr ⟨place, token, expected, rfl, rfl⟩
      | endless =>
          simp only [result] at found
          cases found

/-- What is settled without an error is an alternative that was predicted and matched to its
end. -/
theorem settle_silent {vocabulary : Vocabulary} {decision : Decision} {stream : TokenStream}
    {settled : Outcome} (found : settle vocabulary decision stream = .ok settled)
    (silent : settled.diagnostics = []) :
    ∃ alternative consumed, decision.predict stream.tokens = .ok alternative ∧
      Decision.matchSlots (decision.slots alternative) stream = .complete consumed ∧
      settled.alternative = some (alternative + 1) := by
  rcases settle_cases found with ⟨token, _, same⟩ |
    ⟨alternative, predicted, ⟨consumed, complete, same⟩ | ⟨_, _, _, _, same⟩⟩
  · rw [same] at silent
    cases silent
  · exact ⟨alternative, consumed, predicted, complete, by rw [same]⟩
  · rw [same] at silent
    cases silent

/-- Where an alternative is predicted and matching comes to an end, that alternative is settled
on; the lexer is not blamed, and there is no error at all if the match completes. -/
theorem settle_of_predict {decision : Decision} {stream : TokenStream} {alternative : Nat}
    (vocabulary : Vocabulary) (predicted : decision.predict stream.tokens = .ok alternative)
    (ends : Decision.matchSlots (decision.slots alternative) stream ≠ .endless) :
    ∃ settled, settle vocabulary decision stream = .ok settled ∧
      settled.alternative = some (alternative + 1) ∧
      (∀ diagnostic ∈ settled.diagnostics, diagnostic.problem ≠ .noViableCharacter) ∧
      ((∃ consumed,
          Decision.matchSlots (decision.slots alternative) stream = .complete consumed) →
        settled.diagnostics = []) := by
  unfold settle
  simp only [predicted]
  cases result : Decision.matchSlots (decision.slots alternative) stream with
  | complete consumed =>
      refine ⟨_, rfl, rfl, ?_, fun _ => rfl⟩
      intro diagnostic member
      cases member
  | mismatch index token expected =>
      refine ⟨_, rfl, rfl, ?_, ?_⟩
      · intro diagnostic member
        rw [List.mem_singleton.mp member]
        intro impossible
        cases impossible
      · intro ⟨consumed, impossible⟩
        cases impossible
  | endless => exact absurd result ends

end Recognizer

end LiteralGrammar
