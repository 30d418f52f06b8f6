/-
What is recognized begins with a text of the rule.

Rules may have been changed since the vocabulary was numbered, so an element may
have a literal without a type.  No token has the type that stands for such a
literal; hence the tokens of a match show the values of known literals only, and
what must match is known.
-/

import LiteralGrammar.Proofs.Grammar.Assembly
import LiteralGrammar.Proofs.Recognition.Outcome
import LiteralGrammar.Proofs.Recognition.Phrases

namespace LiteralGrammar

/-- The texts of the first tokens of a stream, when nothing is reported. -/
theorem taken_prefix_of_silent {lexer : Lexer} (solid : lexer.Solid) {input : String}
    (silent : (lexer.tokenize input).diagnostics = []) (count : Nat) :
    (((lexer.tokenize input).stream.body.map Token.shownLiteral).take count).flatMap Prod.snd <+:
      input.toList := by
  refine ⟨(((lexer.tokenize input).stream.body.map Token.shownLiteral).drop count).flatMap
    Prod.snd, ?_⟩
  rw [← List.flatMap_append, List.take_append_drop,
    Lexer.flatMap_shownLiteral_of_silent solid silent]

/-- A match of an alternative has consumed tokens that show a phrase of its known elements. -/
theorem phrase_of_matchSlots {vocabulary : Vocabulary} {lexer : Lexer}
    (formed : vocabulary.WellFormed) (made : Lexer.ofVocabulary vocabulary = .ok lexer)
    {alternative : Alternative} {input : String} {consumed : Nat}
    (complete : Decision.matchSlots (alternative.map (Slot.ofElement vocabulary))
      (lexer.tokenize input).stream = .complete consumed) :
    Phrase (alternative.filter vocabulary.knows)
        ((((lexer.tokenize input).stream.body.map Token.shownLiteral).take consumed).flatMap
          Prod.snd) ∧
      ∀ element ∈ alternative, element.repetition.isOptional = false →
        vocabulary.knows element = true ∧ element.Visible := by
  have apart := (Decision.endFree_map_ofElement formed alternative).apart
    (Lexer.tokenize_ended formed made input)
  obtain ⟨count, _, same, word⟩ := Decision.word_of_matchFrom apart complete
  rw [Nat.zero_add] at same
  rw [same]
  apply phrase_of_word formed made
  · intro literal member
    rcases List.mem_map.mp (List.mem_of_mem_take member) with ⟨token, present, shows⟩
    rw [← shows]
    exact Lexer.shownLiteral_mem (Lexer.solid_of_ofVocabulary made) present
  · rw [List.map_take, List.map_map]
    exact word

/-- Recognition is sound, whatever was done to the rules after the grammar was built: the input
begins with a phrase of the alternative that is reported, in which no unknown literal takes part,
and every element that must match has a known literal that stands for some characters. -/
theorem parse_sound {grammar : Grammar} (assembled : grammar.Assembled)
    {recognizer : Recognizer} (made : Recognizer.ofGrammar grammar = .ok recognizer)
    {name input : String} {outcome : Outcome}
    (parsed : recognizer.parse name input = .ok outcome) (success : outcome.isSuccess = true) :
    ∃ rule chosen alternative text,
      grammar.resolveRule? name = some rule ∧
      outcome.alternative = some (chosen + 1) ∧
      rule.alternatives[chosen]? = some alternative ∧
      text <+: input.toList ∧
      Phrase alternative text ∧
      Phrase (alternative.filter grammar.vocabulary.knows) text ∧
      ∀ element ∈ alternative, element.repetition.isOptional = false →
        grammar.vocabulary.knows element = true ∧ element.Visible := by
  have formed := assembled.wellFormed
  rcases Recognizer.ofGrammar_eq_ok_iff.mp made with ⟨same, lexerMade⟩
  rcases Recognizer.parse_eq_ok_iff.mp parsed with ⟨rule, settled, resolved, found, whole⟩
  rw [same] at resolved found
  rw [whole, Outcome.isSuccess, List.isEmpty_iff, List.append_eq_nil_iff] at success
  obtain ⟨silent, settledSilent⟩ := success
  obtain ⟨chosen, consumed, predicted, complete, number⟩ :=
    Recognizer.settle_silent found settledSilent
  have ended := Lexer.tokenize_ended formed lexerMade input
  obtain ⟨alternative, listed, slots⟩ :=
    Decision.exists_alternative_of_predict formed ended predicted
  rw [slots] at complete
  obtain ⟨phrase, needed⟩ := phrase_of_matchSlots formed lexerMade complete
  refine ⟨rule, chosen, alternative, _, resolved, ?_, listed,
    taken_prefix_of_silent (Lexer.solid_of_ofVocabulary lexerMade) silent consumed, ?_, phrase,
    needed⟩
  · rw [whole]
    exact number
  · apply phrase.of_filter
    intro element member unknown
    apply Classical.byContradiction
    intro mandatory
    have known := (needed element member (Bool.eq_false_iff.mpr mandatory)).1
    rw [unknown] at known
    cases known

private def plain : GrammarDraft :=
  { name := "Plain"
    kind := .combined
    tokens := ["'b'"]
    rules := [{ name := "run", alternatives := [[("'a'", .once)]], exceptions := [] }]
    delegates := [] }

/-- A rule with a literal that the vocabulary of the grammar above does not know. -/
private def altered : Rule :=
  { name := "run"
    alternatives := [[⟨"'b'", .once⟩], [⟨"'z'", .zeroOrMore⟩, ⟨"'a'", .oneOrMore⟩]]
    exceptions := ExceptionSet.empty }

theorem parse_sound_altered :
    ∃ grammar recognizer outcome, plain.build = .ok grammar ∧
      Recognizer.ofGrammar (grammar.replaceRule 0 altered) = .ok recognizer ∧
      recognizer.parse "run" "aab" = .ok outcome ∧ outcome.isSuccess = true ∧
      ∃ chosen alternative text, outcome.alternative = some (chosen + 1) ∧
        altered.alternatives[chosen]? = some alternative ∧
        text <+: ['a', 'a', 'b'] ∧ Phrase alternative text := by
  obtain ⟨grammar, recognizer, made, resolved, ready, parsed⟩ :
      ∃ grammar recognizer, plain.build = .ok grammar ∧
        (grammar.replaceRule 0 altered).resolveRule? "run" = some altered ∧
        Recognizer.ofGrammar (grammar.replaceRule 0 altered) = .ok recognizer ∧
        recognizer.parse "run" "aab" = .ok { alternative := some 2, diagnostics := [] } :=
    ⟨_, _, rfl, rfl, rfl, rfl⟩
  have assembled : (grammar.replaceRule 0 altered).Assembled :=
    Grammar.Assembled.edited (GrammarDraft.built_of_build plain made).assembled
      (Grammar.Edit.replace grammar 0 altered)
  obtain ⟨rule, chosen, alternative, text, found, number, listed, start, phrase, _⟩ :=
    parse_sound assembled ready parsed rfl
  rw [resolved] at found
  cases found
  exact ⟨grammar, recognizer, _, made, ready, parsed, rfl, chosen, alternative, text, number,
    listed, start, phrase⟩

end LiteralGrammar
