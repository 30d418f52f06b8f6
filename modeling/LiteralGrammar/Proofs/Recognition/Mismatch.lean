/-
Mismatches and the first impossible token.

A mismatch names an element that must match and is reported at a token of
another type, to which the tokens before it lead.  Unless a loop of the
alternative starves a later element, no word of the alternative starts with the
tokens up to that one; prediction has then read none of them past it, and has
chosen the alternative as the only one left.
-/

import LiteralGrammar.Proofs.Decision.Mismatch
import LiteralGrammar.Proofs.Recognition.Completeness
import LiteralGrammar.Proofs.Token.Reading

namespace LiteralGrammar

/-! ### The element that is named -/

theorem Decision.LeadsTo.exists_element {vocabulary : Vocabulary} {alternative : Alternative}
    {types : List TokenType} {slot : Slot}
    (leads : LeadsTo (alternative.map (Slot.ofElement vocabulary)) types slot) :
    ∃ element ∈ alternative, slot = Slot.ofElement vocabulary element ∧
      element.repetition.isOptional = false := by
  obtain ⟨earlier, later, same, _, needed⟩ := leads
  rcases List.map_eq_append_iff.mp same with ⟨_, _, split, _, rest⟩
  rcases List.map_eq_cons_iff.mp rest with ⟨element, _, head, made, _⟩
  refine ⟨element, ?_, made.symm, by rw [← made] at needed; exact needed⟩
  rw [split, head]
  exact List.mem_append_right _ List.mem_cons_self

/-- The name that is reported for a known element is its literal. -/
theorem expectedName_ofElement {vocabulary : Vocabulary} (formed : vocabulary.WellFormed)
    {element : Element} (known : vocabulary.knows element = true) :
    vocabulary.tokenType? element.literal = some (Slot.ofElement vocabulary element).type ∧
      Recognizer.expectedName vocabulary (Slot.ofElement vocabulary element).type =
        element.literal := by
  rcases (formed.mem_names_iff _).mp (of_decide_eq_true known) with ⟨type, found⟩
  rw [Slot.type_ofElement found]
  refine ⟨found, ?_⟩
  unfold Recognizer.expectedName
  rw [formed.displayName?_eq found, Option.getD_some]

/-! ### The place that is reported -/

/-- No two tokens of an input that is not too long stand at one place. -/
theorem Lexer.index_unique {vocabulary : Vocabulary} {lexer : Lexer}
    (made : ofVocabulary vocabulary = .ok lexer) {input : String}
    (short : input.length < UInt32.size) {left right : Nat} {leftToken rightToken : Token}
    (leftFound : (lexer.tokenize input).stream.tokens[left]? = some leftToken)
    (rightFound : (lexer.tokenize input).stream.tokens[right]? = some rightToken)
    (same : leftToken.position = rightToken.position) : left = right := by
  have distinct : ((lexer.tokenize input).stream.tokens.map Token.position).Nodup :=
    List.pairwise_map.mpr (tokens_apart made short)
  have inside := (List.getElem?_eq_some_iff.mp leftFound).1
  apply (List.getElem?_inj (by rw [List.length_map]; exact inside) distinct).mp
  rw [List.getElem?_map, List.getElem?_map, leftFound, rightFound, Option.map_some,
    Option.map_some, same]

/-- What is reported is a character of the lexer, a token at which prediction failed, or a token at
which the match of the predicted alternative did. -/
theorem reported_cases {recognizer : Recognizer} {name input : String} {outcome : Outcome}
    (parsed : recognizer.parse name input = .ok outcome)
    {diagnostic : Diagnostic} (reported : diagnostic ∈ outcome.diagnostics) :
    (∃ character position, diagnostic = Diagnostic.noViableCharacter character position) ∨
    (∃ token, diagnostic = Diagnostic.noViableAlternative token) ∨
    ∃ rule chosen place token expected,
      recognizer.grammar.resolveRule? name = some rule ∧
      (Decision.ofRule recognizer.grammar.vocabulary rule).predict
        (recognizer.lexer.tokenize input).stream.tokens = .ok chosen ∧
      Decision.matchSlots ((Decision.ofRule recognizer.grammar.vocabulary rule).slots chosen)
        (recognizer.lexer.tokenize input).stream = .mismatch place token expected ∧
      outcome.alternative = some (chosen + 1) ∧
      diagnostic = Diagnostic.mismatch token
        (Recognizer.expectedName recognizer.grammar.vocabulary expected) := by
  rcases Recognizer.parse_eq_ok_iff.mp parsed with ⟨rule, settled, resolved, found, whole⟩
  rw [whole] at reported ⊢
  rcases List.mem_append.mp reported with ofLexer | ofParser
  · exact Or.inl (Lexer.locate_diagnostics _ _ diagnostic ofLexer)
  · right
    rcases Recognizer.settle_cases found with ⟨token, _, same⟩ |
      ⟨chosen, predicted, ⟨_, _, same⟩ | ⟨place, token, expected, failed, same⟩⟩
    all_goals rw [same] at ofParser
    · exact Or.inl ⟨token, List.mem_singleton.mp ofParser⟩
    · cases ofParser
    · exact Or.inr ⟨rule, chosen, place, token, expected, resolved, predicted, failed,
        by rw [same], List.mem_singleton.mp ofParser⟩

/-! ### Mismatches of a rule -/

/-- What a mismatch tells about an alternative: it is reported at the token at which its match
stops, to which the tokens before it lead, and names an element that must match there and has
another type.  In an input that is not too long no other token stands at the place reported. -/
structure Mismatches (vocabulary : Vocabulary) (alternative : Alternative) (input : String)
    (stream : TokenStream) (place : Nat) (token : Token) (expecting : String)
    (diagnostic : Diagnostic) : Prop where
  present : stream.tokens[place]? = some token
  stops : ∃ expected, Decision.matchSlots (alternative.map (Slot.ofElement vocabulary)) stream =
    .mismatch place token expected
  shown : diagnostic = Diagnostic.mismatch token expecting
  only : input.length < UInt32.size → ∀ index other, stream.tokens[index]? = some other →
    other.position = diagnostic.position → index = place
  element : ∃ element ∈ alternative, element.literal = expecting ∧
    element.repetition.isOptional = false ∧
    Decision.LeadsTo (alternative.map (Slot.ofElement vocabulary))
      ((stream.tokens.map Token.type).take place) (Slot.ofElement vocabulary element)
  different : ∃ type, vocabulary.tokenType? expecting = some type ∧ token.type ≠ type
  viable : Decision.Viable (alternative.map (Slot.ofElement vocabulary))
    ((stream.tokens.map Token.type).take place)

/-- A mismatch of a grammar that was built whole comes from matching a predicted alternative. -/
theorem mismatches_of_parse {grammar : Grammar} (built : grammar.Built) {recognizer : Recognizer}
    (ready : Recognizer.ofGrammar grammar = .ok recognizer) {name input : String}
    {outcome : Outcome} (parsed : recognizer.parse name input = .ok outcome)
    {diagnostic : Diagnostic} (reported : diagnostic ∈ outcome.diagnostics) {expecting : String}
    (mismatched : diagnostic.problem = .mismatch expecting) :
    ∃ rule chosen alternative place token expected,
      grammar.resolveRule? name = some rule ∧
      outcome.alternative = some (chosen + 1) ∧
      rule.alternatives[chosen]? = some alternative ∧
      (Decision.ofRule grammar.vocabulary rule).predict
        (recognizer.lexer.tokenize input).stream.tokens = .ok chosen ∧
      Decision.matchSlots ((Decision.ofRule grammar.vocabulary rule).slots chosen)
        (recognizer.lexer.tokenize input).stream = .mismatch place token expected ∧
      Mismatches grammar.vocabulary alternative input (recognizer.lexer.tokenize input).stream
        place token expecting diagnostic := by
  have formed := built.wellFormed
  rcases Recognizer.ofGrammar_eq_ok_iff.mp ready with ⟨same, lexerMade⟩
  rcases reported_cases parsed reported with ⟨_, _, shown⟩ | ⟨_, shown⟩ |
    ⟨rule, chosen, place, token, expected, resolved, answer, failed, number, shown⟩
  all_goals
    rw [shown] at mismatched
    cases mismatched
  rw [same] at resolved answer failed shown ⊢
  have ended := Lexer.tokenize_ended formed lexerMade input
  obtain ⟨alternative, listed, slots⟩ :=
    Decision.exists_alternative_of_predict formed ended answer
  obtain ⟨present, different, ⟨slot, typed, leads⟩, _⟩ := Decision.matchSlots_mismatch
    (Decision.endFree_slots (Decision.endFree_ofRule formed rule) chosen) ended failed
  rw [slots] at leads
  obtain ⟨element, member, made, needed⟩ := leads.exists_element
  obtain ⟨known, literal⟩ := expectedName_ofElement formed
    (built.knows_of_resolveRule? resolved (List.mem_of_getElem? listed) element member)
  rw [← made, typed] at known literal
  rw [literal] at shown ⊢
  refine ⟨rule, chosen, alternative, place, token, expected, resolved, number, listed, answer,
    failed, ?_⟩
  exact {
    present := present
    stops := ⟨expected, by rw [← slots]; exact failed⟩
    shown := shown
    only := fun short index other found samePlace =>
      Lexer.index_unique lexerMade short found present (by rw [samePlace, shown]; rfl)
    element := ⟨element, member, rfl, needed, by rw [← made]; exact leads⟩
    different := ⟨expected, known, different⟩
    viable := leads.viable }

/-- What holds besides where no loop starves: the place is the first impossible one, prediction
has come no further, and what it chose was the only alternative left and is finished nowhere. -/
structure FailsFirst (decision : Decision) (chosen : Nat) (types : List TokenType)
    (predicted place : Nat) : Prop where
  first : Decision.FirstImpossible (decision.slots chosen) types place
  upTo : predicted ≤ place
  alone : decision.live (types.take predicted) = {chosen}
  unfinished : ∀ count, chosen ∉ decision.finished (types.take count)

/-- A mismatch points at the first impossible token.  The tokens before the one reported start a
word of the predicted alternative, and that token has another type than the element named.  Unless
a loop of the alternative starves a later element, no word of it starts with the tokens up to that
one, prediction has read none of them past it, and has not chosen the alternative because it was
complete. -/
theorem parse_mismatch_first_impossible {draft : GrammarDraft} {grammar : Grammar}
    (made : draft.build = .ok grammar) {recognizer : Recognizer}
    (ready : Recognizer.ofGrammar grammar = .ok recognizer) {name input : String}
    {outcome : Outcome} (parsed : recognizer.parse name input = .ok outcome)
    {diagnostic : Diagnostic} (reported : diagnostic ∈ outcome.diagnostics) {expecting : String}
    (mismatched : diagnostic.problem = .mismatch expecting) :
    ∃ rule chosen alternative place token predicted,
      grammar.resolveRule? name = some rule ∧
      outcome.alternative = some (chosen + 1) ∧
      rule.alternatives[chosen]? = some alternative ∧
      Mismatches grammar.vocabulary alternative input (recognizer.lexer.tokenize input).stream
        place token expecting diagnostic ∧
      (Decision.ofRule grammar.vocabulary rule).Foretold
        (recognizer.lexer.tokenize input).stream.tokens predicted (.ok chosen) ∧
      (¬Starves alternative.repetitions →
        FailsFirst (Decision.ofRule grammar.vocabulary rule) chosen
          ((recognizer.lexer.tokenize input).stream.tokens.map Token.type) predicted place) := by
  have built := GrammarDraft.built_of_build draft made
  have formed := built.wellFormed
  obtain ⟨rule, chosen, alternative, place, token, expected, resolved, number, listed, answer,
    failed, mismatches⟩ := mismatches_of_parse built ready parsed reported mismatched
  have ended := Lexer.tokenize_ended formed (Recognizer.ofGrammar_eq_ok_iff.mp ready).2 input
  have free := Decision.endFree_ofRule formed rule
  obtain ⟨predicted, foretold⟩ := Decision.predict_foretold free ended
  rw [answer] at foretold
  refine ⟨rule, chosen, alternative, place, token, predicted, resolved, number, listed, mismatches,
    foretold, ?_⟩
  intro sheltered
  have fed : ¬Starves (Decision.repetitions
      ((Decision.ofRule grammar.vocabulary rule).slots chosen)) := by
    rw [Decision.slots_ofRule grammar.vocabulary listed]
    have knows := built.knows_of_resolveRule? resolved (List.mem_of_getElem? listed)
    exact fun starves => sheltered (starves_of_slots formed knows starves)
  obtain ⟨_, _, _, first⟩ :=
    Decision.matchSlots_mismatch (Decision.endFree_slots free chosen) ended failed
  obtain ⟨upTo, alone, unfinished⟩ := foretold.le_mismatch free ended fed failed
  exact ⟨first fed, upTo, alone, unfinished⟩

private def optionalRun : Alternative :=
  [⟨"'a'", .zeroOrMore⟩, ⟨"'b'", .once⟩]

private def choiceRule : Rule :=
  { name := "run"
    alternatives := [optionalRun, [⟨"'c'", .once⟩]]
    exceptions := ExceptionSet.empty }

private def choosing : GrammarDraft :=
  { name := "Choice"
    kind := .parser
    tokens := []
    rules :=
      [{ name := "run"
         alternatives := choiceRule.alternatives.map Alternative.repetitions
         exceptions := [] }]
    delegates := [] }

private def strayEnd : Diagnostic :=
  { position := ⟨1, 2⟩, found := "'c'", problem := .mismatch "'b'" }

/-- After two tokens that leave one alternative, a third that only the other one takes. -/
theorem parse_mismatch_first_impossible_choosing :
    ∃ grammar recognizer outcome, choosing.build = .ok grammar ∧
      Recognizer.ofGrammar grammar = .ok recognizer ∧
      recognizer.parse "run" "aac" = .ok outcome ∧ strayEnd ∈ outcome.diagnostics ∧
      strayEnd.problem = .mismatch "'b'" ∧
      ∃ place token predicted,
        Mismatches grammar.vocabulary optionalRun "aac"
          (recognizer.lexer.tokenize "aac").stream place token "'b'" strayEnd ∧
        ¬Starves optionalRun.repetitions ∧
        FailsFirst (Decision.ofRule grammar.vocabulary choiceRule) 0
          ((recognizer.lexer.tokenize "aac").stream.tokens.map Token.type) predicted place := by
  obtain ⟨grammar, recognizer, made, resolved, ready, parsed⟩ :
      ∃ grammar recognizer, choosing.build = .ok grammar ∧
        grammar.resolveRule? "run" = some choiceRule ∧
        Recognizer.ofGrammar grammar = .ok recognizer ∧
        recognizer.parse "run" "aac" =
          .ok { alternative := some 1, diagnostics := [strayEnd] } :=
    ⟨_, _, rfl, rfl, rfl, rfl⟩
  obtain ⟨rule, chosen, alternative, place, token, predicted, found, number, listed, mismatches, _,
      sheltered⟩ :=
    parse_mismatch_first_impossible made ready parsed List.mem_cons_self rfl
  rw [resolved] at found
  cases found
  cases number
  cases listed
  have fed : ¬Starves optionalRun.repetitions := by decide
  exact ⟨grammar, recognizer, _, made, ready, parsed, List.mem_cons_self, rfl, place, token,
    predicted, mismatches, fed, sheltered fed⟩

end LiteralGrammar
