/-
Recognition comes to an end and reads no token or alternative that is not there.

What keeps matching within the stream comes from far apart: no type of a
vocabulary is the one of the end of the input, whatever was done to the rules
afterwards, and the lexer gives only such types to the tokens before the last.
Slots of any other origin are matched to an end just as well, unless one of them
loops on the end of the input and is come to there.
-/

import LiteralGrammar.Proofs.Decision.Matcher
import LiteralGrammar.Proofs.Decision.Worklist
import LiteralGrammar.Proofs.Grammar.Assembly
import LiteralGrammar.Proofs.Recognition.Outcome
import LiteralGrammar.Proofs.Token.Stream

namespace LiteralGrammar

/-- A decision whose prediction and matches end and read only what is there.  The index of a match
is the one of a token at every time, so that none is taken back to the last token from behind
it. -/
structure Decision.StaysWithin (decision : Decision) (stream : TokenStream) : Prop where
  predicts : decision.predict? stream.tokens = some (decision.predict stream.tokens)
  listed : ∀ alternative, decision.predict stream.tokens = .ok alternative →
    alternative < decision.alternatives.length
  ends : ∀ alternative < decision.alternatives.length,
    ∃ count ≤ 2 * (decision.slots alternative).length + stream.body.length + 1,
      ((Matcher.choose decision alternative).run stream.tokens count).result? =
        some (Decision.matchSlots (decision.slots alternative) stream)
  inside : ∀ alternative < decision.alternatives.length, ∀ count,
    let matcher := (Matcher.choose decision alternative).run stream.tokens count
    matcher.phase ≠ .missed ∧ matcher.index < stream.tokens.length ∧
      Matcher.readAt? stream.tokens matcher.index = stream.tokens[matcher.index]?

theorem Matcher.choose_eq_start {decision : Decision} {alternative : Nat}
    (within : alternative < decision.alternatives.length) :
    choose decision alternative = start (decision.slots alternative) := by
  rw [choose, Decision.listed_slots within]

theorem Decision.staysWithin {decision : Decision} {stream : TokenStream}
    (free : ∀ slots ∈ decision.alternatives, EndFree slots) (ended : stream.Ended) :
    decision.StaysWithin stream := by
  refine ⟨decision.predict?_eq stream.tokens, ?_, ?_, ?_⟩
  · intro alternative predicted
    exact lt_of_predict_eq_ok free ended predicted
  · intro alternative within
    rw [Matcher.choose_eq_start within]
    exact Matcher.ends_of_endFree ended (endFree_slots free alternative)
  · intro alternative within count
    rw [Matcher.choose_eq_start within]
    have upTo := (Matcher.inside_run ended (endFree_slots free alternative) count).within
    have inside : ((Matcher.start (decision.slots alternative)).run stream.tokens count).index <
        stream.tokens.length := by
      rw [TokenStream.tokens, List.length_append, List.length_singleton]
      exact Nat.lt_succ_of_le upTo
    exact ⟨Matcher.run_start_ne_missed stream _ count, inside, Matcher.readAt?_of_lt inside⟩

theorem Decision.StaysWithin.matchSlots_ne_endless {decision : Decision} {stream : TokenStream}
    (stays : decision.StaysWithin stream) {alternative : Nat}
    (predicted : decision.predict stream.tokens = .ok alternative) :
    matchSlots (decision.slots alternative) stream ≠ .endless := by
  obtain ⟨count, _, found⟩ := stays.ends alternative (stays.listed alternative predicted)
  exact (Matcher.outcome_of_result stream found).2

/-- Where a decision stays within the tokens, something is settled. -/
theorem Decision.StaysWithin.exists_settled {decision : Decision} {stream : TokenStream}
    (stays : decision.StaysWithin stream) (vocabulary : Vocabulary) :
    ∃ settled, Recognizer.settle vocabulary decision stream = .ok settled := by
  cases predicted : decision.predict stream.tokens with
  | error token =>
      unfold Recognizer.settle
      simp only [predicted]
      exact ⟨_, rfl⟩
  | ok alternative =>
      obtain ⟨settled, found, _⟩ := Recognizer.settle_of_predict vocabulary predicted
        (stays.matchSlots_ne_endless predicted)
      exact ⟨settled, found⟩

/-- Whatever was done to the rules of a grammar after it was built, recognizing an input by any
rule stays within its tokens and comes to an end.  Slots of any types, on a stream in which only
the last token marks the end, are matched to an end unless matching comes to a loop on the end of
the input at that end. -/
theorem recognition_stays_within :
    (∀ grammar : Grammar, grammar.Assembled → ∀ recognizer,
      Recognizer.ofGrammar grammar = .ok recognizer → ∀ input : String,
        (∀ rule : Rule, (Decision.ofRule grammar.vocabulary rule).StaysWithin
          (recognizer.lexer.tokenize input).stream) ∧
        ∀ name, grammar.resolveRule? name ≠ none →
          ∃ outcome, recognizer.parse name input = .ok outcome) ∧
      ∀ (slots : List Slot) (stream : TokenStream), stream.Ended →
        ((∃ count result,
            ((Matcher.start slots).run stream.tokens count).result? = some result) ↔
          ¬∃ count, Matcher.Trapped stream ((Matcher.start slots).run stream.tokens count)) ∧
        ∀ count result, ((Matcher.start slots).run stream.tokens count).result? = some result →
          Decision.matchSlots slots stream = result := by
  constructor
  · intro grammar assembled recognizer made input
    have formed := assembled.wellFormed
    obtain ⟨same, lexerMade⟩ := Recognizer.ofGrammar_eq_ok_iff.mp made
    have stays (rule : Rule) : (Decision.ofRule grammar.vocabulary rule).StaysWithin
        (recognizer.lexer.tokenize input).stream :=
      Decision.staysWithin (Decision.endFree_ofRule formed rule)
        (Lexer.tokenize_ended formed lexerMade input)
    refine ⟨stays, ?_⟩
    intro name known
    obtain ⟨rule, resolved⟩ := Option.ne_none_iff_exists'.mp known
    obtain ⟨settled, found⟩ := (stays rule).exists_settled grammar.vocabulary
    rw [← same] at resolved found
    exact ⟨_, Recognizer.parse_eq_ok_iff.mpr ⟨rule, settled, resolved, found, rfl⟩⟩
  · intro slots stream ended
    exact ⟨Matcher.ends_iff ended slots, fun _ _ found => (Matcher.result_of_run found).1⟩

private def repeating : GrammarDraft :=
  { name := "Repeating"
    kind := .combined
    tokens := ["'b'"]
    rules := [{ name := "run", alternatives := [[("'a'", .zeroOrMore)]], exceptions := [] }]
    delegates := [] }

/-- A rule that asks for more than any input has, of literals known and unknown. -/
private def wanting : Rule :=
  { name := "run"
    alternatives := [[⟨"'a'", .zeroOrMore⟩, ⟨"'b'", .oneOrMore⟩, ⟨"'z'", .once⟩],
      [⟨"'b'", .once⟩]]
    exceptions := ExceptionSet.empty }

private def atEnd : TokenStream :=
  { body := []
    last := Token.endOfInput Position.start }

/-- A rule put in place of another is matched to a mismatch; a loop on the end never ends. -/
theorem recognition_stays_within_wanting :
    (∃ grammar recognizer, repeating.build = .ok grammar ∧
      Recognizer.ofGrammar (grammar.replaceRule 0 wanting) = .ok recognizer ∧
      (Decision.ofRule grammar.vocabulary wanting).StaysWithin
        (recognizer.lexer.tokenize "aabb").stream) ∧
      ¬∃ count result, ((Matcher.start [⟨TokenType.endOfInput, .oneOrMore⟩]).run
        atEnd.tokens count).result? = some result := by
  constructor
  · obtain ⟨grammar, recognizer, made, ready⟩ :
        ∃ grammar recognizer, repeating.build = .ok grammar ∧
          Recognizer.ofGrammar (grammar.replaceRule 0 wanting) = .ok recognizer :=
      ⟨_, _, rfl, rfl⟩
    have assembled : (grammar.replaceRule 0 wanting).Assembled :=
      Grammar.Assembled.edited (GrammarDraft.built_of_build repeating made).assembled
        (Grammar.Edit.replace grammar 0 wanting)
    exact ⟨grammar, recognizer, made, ready,
      (recognition_stays_within.1 _ assembled recognizer ready "aabb").1 wanting⟩
  · have ended : atEnd.Ended := ⟨nofun, rfl⟩
    rw [(recognition_stays_within.2 _ atEnd ended).1, Classical.not_not]
    exact ⟨0, rfl, rfl, Nat.le_refl 0⟩

end LiteralGrammar
