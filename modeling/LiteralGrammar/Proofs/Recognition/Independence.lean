/-
Recognition under two vocabularies.

A rule that two built grammars share has paired slots, and where the grammars
agree on an input its tokens are paired too; what is reported names places,
texts and literals, but no types.  So the outcome does not depend on how the
literals are numbered, nor on what else the grammars import or declare.
-/

import LiteralGrammar.Proofs.Recognition.Completeness
import LiteralGrammar.Proofs.Token.Renumbering
import Mathlib.Data.List.Infix

namespace LiteralGrammar

/-! ### From paired streams to one outcome -/

namespace Renumbering

variable {numbering : Renumbering}

theorem PairsToken.shown_eq {left right : Token} (paired : numbering.PairsToken left right) :
    left.shown = right.shown := by
  unfold Token.shown Token.isEnd
  simp only [numbering.unique paired.type numbering.ends, paired.text]

theorem PairsToken.noViableAlternative_eq {left right : Token}
    (paired : numbering.PairsToken left right) :
    Diagnostic.noViableAlternative left = Diagnostic.noViableAlternative right := by
  unfold Diagnostic.noViableAlternative
  rw [paired.position, paired.shown_eq]

theorem PairsToken.mismatch_eq {left right : Token} (paired : numbering.PairsToken left right)
    (expecting : String) :
    Diagnostic.mismatch left expecting = Diagnostic.mismatch right expecting := by
  unfold Diagnostic.mismatch
  rw [paired.position, paired.shown_eq]

/-- Paired decisions settle paired streams alike, when paired types have the same names. -/
theorem settle_eq {left right : Decision} (decisions : numbering.PairsDecision left right)
    {leftStream rightStream : TokenStream}
    (streams : numbering.PairsStream leftStream rightStream)
    {leftVocabulary rightVocabulary : Vocabulary}
    (named : ∀ type other, numbering.Pairs type other →
      leftVocabulary.displayName? type = rightVocabulary.displayName? other) :
    Recognizer.settle leftVocabulary left leftStream =
      Recognizer.settle rightVocabulary right rightStream := by
  have predictions := decisions.predict streams
  unfold Recognizer.settle
  generalize left.predict leftStream.tokens = leftPrediction at predictions ⊢
  generalize right.predict rightStream.tokens = rightPrediction at predictions ⊢
  cases predictions with
  | error token => simp only [token.noViableAlternative_eq]
  | ok alternative =>
      have results := matchSlots (decisions.slots alternative) streams
      simp only
      generalize Decision.matchSlots (left.slots alternative) leftStream = leftResult at results ⊢
      generalize Decision.matchSlots (right.slots alternative) rightStream = rightResult
        at results ⊢
      cases results with
      | complete consumed => rfl
      | mismatch index found expected =>
          have names : Recognizer.expectedName leftVocabulary _ =
              Recognizer.expectedName rightVocabulary _ :=
            congrArg (fun name => name.getD "<invalid>") (named _ _ expected)
          simp only [names, found.mismatch_eq]
      | endless => rfl

end Renumbering

/-! ### Agreement can be computed -/

theorem Literal.visibleValue?_eq_some_iff {literal : String} {value : List Char} :
    visibleValue? literal = some value ↔ Denotes literal value ∧ value ≠ [] := by
  unfold visibleValue? Denotes
  cases Literal.decode literal with
  | error fault => simp
  | ok text =>
      simp only [Except.ok.injEq]
      split
      · rename_i empty
        rw [empty]
        constructor
        · intro impossible
          cases impossible
        · intro ⟨same, visible⟩
          exact absurd (String.ofList_eq_empty_iff.mp same.symm) visible
      · rename_i visible
        constructor
        · intro same
          cases same
          exact ⟨String.ofList_toList.symm,
            fun empty => visible (String.toList_eq_nil_iff.mp empty)⟩
        · intro ⟨same, _⟩
          rw [same, String.toList_ofList]

namespace Vocabulary

/-- The literals of the vocabulary that occur in an input, in the order of definition. -/
def occurring (vocabulary : Vocabulary) (input : List Char) : List String :=
  (vocabulary.literals.map Prod.snd).filter (fun name =>
    (Literal.visibleValue? name).any (fun value => value <:+: input))

theorem mem_occurring_iff {vocabulary : Vocabulary} {input : List Char} {name : String} :
    name ∈ vocabulary.occurring input ↔ vocabulary.Occurs input name := by
  unfold occurring Occurs
  rw [List.mem_filter, List.mem_map, Option.any_eq_true]
  simp only [Literal.visibleValue?_eq_some_iff, decide_eq_true_eq]
  apply and_congr
  · constructor
    · intro ⟨literal, member, same⟩
      exact ⟨literal.1, same ▸ member⟩
    · intro ⟨type, member⟩
      exact ⟨(type, name), member, rfl⟩
  · constructor
    · intro ⟨value, ⟨denotes, visible⟩, inside⟩
      exact ⟨value, denotes, visible, inside⟩
    · intro ⟨value, denotes, visible, inside⟩
      exact ⟨value, ⟨denotes, visible⟩, inside⟩

theorem agree_iff {left right : Vocabulary} {input : List Char} :
    left.Agree right input ↔
      (∀ name ∈ left.occurring input, name ∈ right.occurring input) ∧
        (∀ name ∈ right.occurring input, name ∈ left.occurring input) ∧
        ∀ name ∈ left.occurring input, ∀ other ∈ left.occurring input,
          Literal.visibleValue? name = Literal.visibleValue? other → name = other := by
  simp only [mem_occurring_iff]
  constructor
  · intro agree
    refine ⟨fun name => (agree.same name).mp, fun name => (agree.same name).mpr, ?_⟩
    intro name occurs other otherOccurs values
    obtain ⟨_, value, denotes, visible, _⟩ := id occurs
    have valued := Literal.visibleValue?_eq_some_iff.mpr ⟨denotes, visible⟩
    rw [values] at valued
    exact agree.apart occurs otherOccurs denotes (Literal.visibleValue?_eq_some_iff.mp valued).1
  · intro ⟨forth, back, apart⟩
    refine ⟨fun name => ⟨forth name, back name⟩, ?_⟩
    intro name other value occurs otherOccurs denotes otherDenotes
    apply apart name occurs other otherOccurs
    obtain ⟨_, again, denotesAgain, visible, _⟩ := occurs
    rw [denotesAgain.unique denotes] at visible
    rw [Literal.visibleValue?_eq_some_iff.mpr ⟨denotes, visible⟩,
      Literal.visibleValue?_eq_some_iff.mpr ⟨otherDenotes, visible⟩]

instance (left right : Vocabulary) (input : List Char) : Decidable (left.Agree right input) :=
  decidable_of_iff' _ agree_iff

end Vocabulary

/-! ### Rules that two vocabularies know -/

namespace Vocabulary

theorem pairsSlot_ofElement {left right : Vocabulary} (leftFormed : left.WellFormed)
    (rightFormed : right.WellFormed) {element : Element} (known : left.knows element = true)
    (knownToo : right.knows element = true) :
    (renumbering leftFormed rightFormed).PairsSlot (Slot.ofElement left element)
      (Slot.ofElement right element) := by
  obtain ⟨type, found⟩ := (leftFormed.mem_names_iff _).mp (of_decide_eq_true known)
  obtain ⟨other, otherFound⟩ := (rightFormed.mem_names_iff _).mp (of_decide_eq_true knownToo)
  unfold Slot.ofElement
  rw [found, otherFound]
  exact ⟨Or.inr ⟨element.literal, found, otherFound⟩, rfl⟩

theorem pairsDecision_ofRule {left right : Vocabulary} (leftFormed : left.WellFormed)
    (rightFormed : right.WellFormed) {rule other : Rule}
    (same : rule.alternatives = other.alternatives)
    (known : ∀ alternative ∈ rule.alternatives, ∀ element ∈ alternative,
      left.knows element = true ∧ right.knows element = true) :
    (renumbering leftFormed rightFormed).PairsDecision (Decision.ofRule left rule)
      (Decision.ofRule right other) := by
  unfold Renumbering.PairsDecision Decision.ofRule
  rw [← same, List.forall₂_map_left_iff, List.forall₂_map_right_iff, List.forall₂_same]
  intro alternative listed
  unfold Renumbering.PairsSlots
  rw [List.forall₂_map_left_iff, List.forall₂_map_right_iff, List.forall₂_same]
  intro element member
  obtain ⟨here, there⟩ := known alternative listed element member
  exact pairsSlot_ofElement leftFormed rightFormed here there

end Vocabulary

/-! ### One outcome -/

namespace Recognizer

/-- A decision about a rule is always settled: no literal has the type of the end. -/
theorem settle_exists {vocabulary : Vocabulary} (formed : vocabulary.WellFormed) (rule : Rule)
    {stream : TokenStream} (ended : stream.Ended) :
    ∃ settled, settle vocabulary (Decision.ofRule vocabulary rule) stream = .ok settled := by
  cases predicted : (Decision.ofRule vocabulary rule).predict stream.tokens with
  | error token =>
      unfold settle
      simp only [predicted]
      exact ⟨_, rfl⟩
  | ok alternative =>
      have apart := (Decision.endFree_slots (Decision.endFree_ofRule formed rule)
        alternative).apart ended
      obtain ⟨settled, found, _⟩ :=
        settle_of_predict vocabulary predicted (Decision.matchFrom_ne_endless apart)
      exact ⟨settled, found⟩

/-- Recognizers of built grammars that share a rule and agree on the input. -/
theorem parse_of_agree {left right : Grammar} (leftBuilt : left.Built) (rightBuilt : right.Built)
    {leftRecognizer rightRecognizer : Recognizer} (leftMade : ofGrammar left = .ok leftRecognizer)
    (rightMade : ofGrammar right = .ok rightRecognizer) {name input : String} {rule other : Rule}
    (leftResolved : left.resolveRule? name = some rule)
    (rightResolved : right.resolveRule? name = some other)
    (same : other.alternatives = rule.alternatives)
    (agree : left.vocabulary.Agree right.vocabulary input.toList) :
    ∃ outcome, leftRecognizer.parse name input = .ok outcome ∧
      rightRecognizer.parse name input = .ok outcome := by
  obtain ⟨leftSame, leftLexed⟩ := ofGrammar_eq_ok_iff.mp leftMade
  obtain ⟨rightSame, rightLexed⟩ := ofGrammar_eq_ok_iff.mp rightMade
  have leftFormed := leftBuilt.wellFormed
  have rightFormed := rightBuilt.wellFormed
  have known : ∀ alternative ∈ rule.alternatives, ∀ element ∈ alternative,
      left.vocabulary.knows element = true ∧ right.vocabulary.knows element = true := by
    intro alternative listed element member
    exact ⟨leftBuilt.knows_of_resolveRule? leftResolved listed element member,
      rightBuilt.knows_of_resolveRule? rightResolved (same ▸ listed) element member⟩
  have decisions := Vocabulary.pairsDecision_ofRule leftFormed rightFormed same.symm known
  have scans := Renumbering.pairs_locate
    (Lexer.pairs_pieces ⟨leftFormed, leftLexed⟩ ⟨rightFormed, rightLexed⟩ agree) Position.start
  have settles := Renumbering.settle_eq decisions scans.stream
    (fun _ _ => Vocabulary.displayName?_of_pairs leftFormed rightFormed)
  obtain ⟨settled, found⟩ :=
    settle_exists leftFormed rule (Lexer.tokenize_ended leftFormed leftLexed input)
  refine ⟨_, parse_eq_ok_iff.mpr ⟨rule, settled, ?_, ?_, rfl⟩,
    parse_eq_ok_iff.mpr ⟨other, settled, ?_, ?_, ?_⟩⟩
  · rw [leftSame, leftResolved]
  · rw [leftSame, found]
  · rw [rightSame, rightResolved]
  · rw [rightSame]
    exact settles.symm.trans found
  · exact congrArg (fun diagnostics => { settled with
      diagnostics := diagnostics ++ settled.diagnostics }) scans.diagnostics

end Recognizer

namespace Grammar

/-- A grammar inside one whose literals can be decoded has no other literals to decode. -/
theorem exists_ofGrammar_of_contains {outer inner : Grammar} (built : outer.Built)
    (contains : outer.Contains inner) {recognizer : Recognizer}
    (made : Recognizer.ofGrammar outer = .ok recognizer) :
    ∃ innerRecognizer, Recognizer.ofGrammar inner = .ok innerRecognizer := by
  obtain ⟨_, lexed⟩ := Recognizer.ofGrammar_eq_ok_iff.mp made
  obtain ⟨_, read, _⟩ := Lexer.ofVocabulary_eq_ok_iff.mp lexed
  have formed := built.wellFormed
  have innerFormed := (built.of_contains contains).wellFormed
  apply Recognizer.ofGrammar_exists
  intro literal member
  obtain ⟨known, opens⟩ := (innerFormed.mem_literals_iff literal.1 literal.2).mp member
  have named := built.mem_names_of_contains contains
    ((innerFormed.mem_names_iff literal.2).mpr ⟨literal.1, known⟩)
  obtain ⟨type, found⟩ := (formed.mem_names_iff literal.2).mp named
  exact Lexer.decodes_of_decodeLiterals read (type, literal.2)
    ((formed.mem_literals_iff _ _).mpr ⟨found, opens⟩)

/-- Recognition depends neither on the numbers of the literals nor on what else is imported: on an
input where their vocabularies agree, two built grammars in which a name stands for the same
alternatives have the same outcome.  So it makes no difference whether a rule is recognized from
the grammar or from one inside it, such as the one that defines it. -/
theorem recognition_independent {grammar : Grammar} (built : grammar.Built)
    {recognizer : Recognizer} (made : Recognizer.ofGrammar grammar = .ok recognizer)
    {name input : String} {rule : Rule} (resolved : grammar.resolveRule? name = some rule) :
    (∀ other otherRecognizer otherRule, other.Built →
      Recognizer.ofGrammar other = .ok otherRecognizer →
      other.resolveRule? name = some otherRule → otherRule.alternatives = rule.alternatives →
      grammar.vocabulary.Agree other.vocabulary input.toList →
      ∃ outcome, recognizer.parse name input = .ok outcome ∧
        otherRecognizer.parse name input = .ok outcome) ∧
    (∃ definer, grammar.Contains definer ∧ definer.rule? name = some rule) ∧
    ∀ inner innerRule, grammar.Contains inner →
      inner.resolveRule? name = some innerRule → innerRule.alternatives = rule.alternatives →
      grammar.vocabulary.Agree inner.vocabulary input.toList →
      ∃ innerRecognizer outcome, Recognizer.ofGrammar inner = .ok innerRecognizer ∧
        recognizer.parse name input = .ok outcome ∧
        innerRecognizer.parse name input = .ok outcome := by
  refine ⟨?_, ?_, ?_⟩
  · intro other otherRecognizer otherRule otherBuilt otherMade otherResolved same agree
    exact Recognizer.parse_of_agree built otherBuilt made otherMade resolved otherResolved same
      agree
  · exact exists_definer_of_resolveRule? resolved
  · intro inner innerRule contains innerResolved same agree
    obtain ⟨innerRecognizer, innerMade⟩ := exists_ofGrammar_of_contains built contains made
    obtain ⟨outcome, parsed, innerParsed⟩ := Recognizer.parse_of_agree built
      (built.of_contains contains) made innerMade resolved innerResolved same agree
    exact ⟨innerRecognizer, outcome, innerMade, parsed, innerParsed⟩

private def pairRule : Rule :=
  { name := "pair"
    alternatives := [[⟨"'a'", .oneOrMore⟩, ⟨"'='", .once⟩], [⟨"'a'", .once⟩]]
    exceptions := ExceptionSet.empty }

private def outer : GrammarDraft :=
  { name := "Outer"
    kind := .combined
    tokens := ["ID", "'==>'"]
    rules := [{ name := "run", alternatives := [[("'=='", .once)]], exceptions := [] }]
    delegates :=
      [{ name := "Inner"
         kind := .parser
         tokens := []
         rules :=
           [{ name := "run", alternatives := [[("'b'", .once)]], exceptions := [] },
            { name := "pair"
              alternatives := pairRule.alternatives.map Alternative.repetitions
              exceptions := [] }]
         delegates := [] }] }

/-- A grammar with the same rule, but with other numbers for its literals. -/
private def alone : GrammarDraft :=
  { name := "Alone"
    kind := .parser
    tokens := ["'='", "'b'"]
    rules :=
      [{ name := "pair"
         alternatives := pairRule.alternatives.map Alternative.repetitions
         exceptions := [] }]
    delegates := [] }

/-- A stray character, and a literal that is missing after a loop. -/
private def reported : Outcome :=
  { alternative := some 1
    diagnostics :=
      [Diagnostic.noViableCharacter '?' ⟨1, 1⟩, ⟨⟨1, 3⟩, "'b'", .mismatch "'='"⟩] }

theorem recognition_independent_reported :
    ∃ grammar other inner recognizer otherRecognizer innerRecognizer,
      outer.build = .ok grammar ∧ alone.build = .ok other ∧ grammar.delegates = [inner] ∧
      Recognizer.ofGrammar grammar = .ok recognizer ∧
      Recognizer.ofGrammar other = .ok otherRecognizer ∧
      Recognizer.ofGrammar inner = .ok innerRecognizer ∧
      grammar.vocabulary.tokenType? "'a'" ≠ other.vocabulary.tokenType? "'a'" ∧
      recognizer.parse "pair" "a?ab" = .ok reported ∧
      otherRecognizer.parse "pair" "a?ab" = .ok reported ∧
      innerRecognizer.parse "pair" "a?ab" = .ok reported := by
  obtain ⟨grammar, other, inner, recognizer, otherRecognizer, made, otherMade, imports, ready,
      otherReady, resolved, otherResolved, innerResolved, different, parsed, agree,
      innerAgree⟩ :
      ∃ grammar other inner recognizer otherRecognizer,
        outer.build = .ok grammar ∧ alone.build = .ok other ∧ grammar.delegates = [inner] ∧
        Recognizer.ofGrammar grammar = .ok recognizer ∧
        Recognizer.ofGrammar other = .ok otherRecognizer ∧
        grammar.resolveRule? "pair" = some pairRule ∧
        other.resolveRule? "pair" = some pairRule ∧
        inner.resolveRule? "pair" = some pairRule ∧
        grammar.vocabulary.tokenType? "'a'" ≠ other.vocabulary.tokenType? "'a'" ∧
        recognizer.parse "pair" "a?ab" = .ok reported ∧
        grammar.vocabulary.Agree other.vocabulary "a?ab".toList ∧
        grammar.vocabulary.Agree inner.vocabulary "a?ab".toList :=
    ⟨_, _, _, _, _, rfl, rfl, rfl, rfl, rfl, rfl, rfl, rfl, by decide +kernel,
      by decide +kernel, by decide +kernel, by decide +kernel⟩
  have contains : grammar.Contains inner :=
    Contains.imported (imports ▸ List.mem_singleton_self inner) (Contains.self inner)
  obtain ⟨elsewhere, _, within⟩ :=
    recognition_independent (GrammarDraft.built_of_build outer made) ready resolved
  obtain ⟨_, parsedAgain, otherParsed⟩ := elsewhere other otherRecognizer pairRule
    (GrammarDraft.built_of_build alone otherMade) otherReady otherResolved rfl agree
  obtain ⟨innerRecognizer, _, innerReady, parsedOnceMore, innerParsed⟩ :=
    within inner pairRule contains innerResolved rfl innerAgree
  rw [parsed] at parsedAgain parsedOnceMore
  cases parsedAgain
  cases parsedOnceMore
  exact ⟨grammar, other, inner, recognizer, otherRecognizer, innerRecognizer, made, otherMade,
    imports, ready, otherReady, innerReady, different, parsed, otherParsed, innerParsed⟩

end Grammar

end LiteralGrammar
