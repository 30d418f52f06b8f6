/-
Prediction against the languages of the alternatives.

Prediction is settled at the earliest place where the tokens before it leave a
single alternative, or where the token at it leaves none.  Its answer depends
on the languages alone: that single alternative, or else the lowest one that is
finished there, or else a failure at the token.
-/

import LiteralGrammar.Proofs.Decision.Configurations
import LiteralGrammar.Recognizer
import Mathlib.Order.Bounds.Basic

namespace LiteralGrammar.Decision

/-- The alternatives with a word that starts with some types. -/
def live (decision : Decision) (types : List TokenType) : Set Nat :=
  {alternative | alternative < decision.alternatives.length ∧
    Viable (decision.slots alternative) types}

/-- The alternatives that have some types as a word. -/
def finished (decision : Decision) (types : List TokenType) : Set Nat :=
  {alternative | alternative < decision.alternatives.length ∧
    Word (decision.slots alternative) types}

/-- Whether the types before a place leave a single alternative, or those up to it none. -/
def SettledAt (decision : Decision) (types : List TokenType) (place : Nat) : Prop :=
  (∃ alternative, decision.live (types.take place) = {alternative}) ∨
    decision.live (types.take (place + 1)) = ∅

/-- What an answer must be, given the earliest place at which the choice is settled. -/
structure Foretold (decision : Decision) (tokens : List Token) (place : Nat)
    (answer : Except Token Nat) : Prop where
  earliest : IsLeast {index | decision.SettledAt (tokens.map Token.type) index} place
  single : ∀ alternative,
    decision.live ((tokens.map Token.type).take place) = {alternative} →
      answer = .ok alternative
  lowest : (∀ alternative,
      decision.live ((tokens.map Token.type).take place) ≠ {alternative}) →
    ∀ alternative, IsLeast (decision.finished ((tokens.map Token.type).take place)) alternative →
      answer = .ok alternative
  stuck : (∀ alternative,
      decision.live ((tokens.map Token.type).take place) ≠ {alternative}) →
    decision.finished ((tokens.map Token.type).take place) = ∅ →
      ∃ token, tokens[place]? = some token ∧ answer = .error token

theorem finished_subset_live (decision : Decision) (types : List TokenType) :
    decision.finished types ⊆ decision.live types := by
  intro alternative member
  exact ⟨member.1, [], by rw [List.append_nil]; exact member.2⟩

/-! ### Alternatives of configurations -/

theorem mem_live_iff (decision : Decision) (types : List TokenType) (alternative : Nat) :
    alternative ∈ decision.live types ↔
      ∃ config ∈ decision.after types, config.alternative = alternative := by
  constructor
  · intro ⟨within, viable⟩
    obtain ⟨position, looping, stands⟩ := stands_of_viable viable
    exact ⟨⟨alternative, position, looping⟩,
      (mem_after_iff decision types _).mpr ⟨within, stands⟩, rfl⟩
  · intro ⟨config, member, same⟩
    obtain ⟨within, stands⟩ := occupies_of_mem_after member
    rw [← same]
    exact ⟨within, stands.viable⟩

theorem mem_finished_iff (decision : Decision) (types : List TokenType) (alternative : Nat) :
    alternative ∈ decision.finished types ↔
      ∃ config ∈ (decision.after types).filter decision.isComplete,
        config.alternative = alternative := by
  constructor
  · intro ⟨within, word⟩
    rcases (word_iff_stands _ _).mp word with ⟨looping, stands⟩
    refine ⟨⟨alternative, (decision.slots alternative).length, looping⟩,
      List.mem_filter.mpr ⟨(mem_after_iff decision types _).mpr ⟨within, stands⟩, ?_⟩, rfl⟩
    exact decide_eq_true rfl
  · intro ⟨config, member, same⟩
    rcases List.mem_filter.mp member with ⟨present, complete⟩
    obtain ⟨within, stands⟩ := occupies_of_mem_after present
    have atEnd : config.position = (decision.slots config.alternative).length :=
      of_decide_eq_true complete
    rw [← same]
    rw [atEnd] at stands
    exact ⟨within, (word_iff_stands _ _).mpr ⟨config.looping, stands⟩⟩

theorem live_eq_empty_iff (decision : Decision) (types : List TokenType) :
    decision.live types = ∅ ↔ decision.after types = [] := by
  rw [Set.eq_empty_iff_forall_notMem, List.eq_nil_iff_forall_not_mem]
  constructor
  · intro dead config member
    exact dead config.alternative ((mem_live_iff _ _ _).mpr ⟨config, member, rfl⟩)
  · intro empty alternative member
    rcases (mem_live_iff _ _ _).mp member with ⟨config, present, _⟩
    exact empty config present

theorem sole?_eq_some_iff (configs : List Config) (alternative : Nat) :
    sole? configs = some alternative ↔
      configs ≠ [] ∧ ∀ config ∈ configs, config.alternative = alternative := by
  cases configs with
  | nil => simp [sole?]
  | cons first rest =>
      simp only [sole?, List.all_eq_true, decide_eq_true_eq]
      constructor
      · intro found
        split at found
        · rename_i same
          cases found
          refine ⟨List.cons_ne_nil _ _, ?_⟩
          intro config member
          rcases List.mem_cons.mp member with atHead | later
          · rw [atHead]
          · exact same config later
        · cases found
      · intro ⟨_, same⟩
        have atHead := same first List.mem_cons_self
        rw [if_pos (fun config later =>
          (same config (List.mem_cons_of_mem first later)).trans atHead.symm), atHead]

theorem sole?_after_eq_some_iff (decision : Decision) (types : List TokenType)
    (alternative : Nat) :
    sole? (decision.after types) = some alternative ↔ decision.live types = {alternative} := by
  rw [sole?_eq_some_iff, Set.eq_singleton_iff_unique_mem]
  constructor
  · intro ⟨nonempty, same⟩
    obtain ⟨config, member⟩ := List.exists_mem_of_ne_nil _ nonempty
    refine ⟨(mem_live_iff _ _ _).mpr ⟨config, member, same config member⟩, ?_⟩
    intro other present
    rcases (mem_live_iff _ _ _).mp present with ⟨config, member, found⟩
    rw [← found]
    exact same config member
  · intro ⟨present, unique⟩
    rcases (mem_live_iff _ _ _).mp present with ⟨config, member, _⟩
    refine ⟨List.ne_nil_of_mem member, ?_⟩
    intro other inside
    exact unique other.alternative ((mem_live_iff _ _ _).mpr ⟨other, inside, rfl⟩)

theorem lowest?_eq_some_iff (configs : List Config) (alternative : Nat) :
    lowest? configs = some alternative ↔
      IsLeast {number | ∃ config ∈ configs, config.alternative = number} alternative := by
  unfold lowest?
  rw [List.min?_eq_some_iff, List.mem_map]
  constructor
  · intro ⟨present, least⟩
    refine ⟨present, ?_⟩
    intro other ⟨config, member, same⟩
    exact least other (List.mem_map.mpr ⟨config, member, same⟩)
  · intro ⟨present, least⟩
    refine ⟨present, ?_⟩
    intro other member
    exact least (List.mem_map.mp member)

theorem lowest?_complete_eq_some_iff (decision : Decision) (types : List TokenType)
    (alternative : Nat) :
    lowest? ((decision.after types).filter decision.isComplete) = some alternative ↔
      IsLeast (decision.finished types) alternative := by
  have same : decision.finished types = {number |
      ∃ config ∈ (decision.after types).filter decision.isComplete,
        config.alternative = number} :=
    Set.ext (mem_finished_iff decision types)
  rw [lowest?_eq_some_iff, same]

/-! ### The loop over the tokens -/

theorem take_types (past ahead : List Token) :
    ((past ++ ahead).map Token.type).take past.length = past.map Token.type := by
  rw [List.map_append, List.take_left' (by rw [List.length_map])]

/-- The configurations tell when the choice is settled: they belong to one alternative, or the
next token leaves none of them. -/
theorem settledAt_length_iff (decision : Decision) (past rest : List Token) (token : Token) :
    decision.SettledAt ((past ++ token :: rest).map Token.type) past.length ↔
      (∃ alternative, sole? (decision.after (past.map Token.type)) = some alternative) ∨
        decision.step (decision.after (past.map Token.type)) token.type = [] := by
  have upTo : ((past ++ token :: rest).map Token.type).take (past.length + 1) =
      past.map Token.type ++ [token.type] := by
    have longer := take_types (past ++ [token]) rest
    rw [← List.append_cons, List.length_append, List.length_singleton] at longer
    rw [longer, List.map_append, List.map_singleton]
  unfold SettledAt
  rw [take_types, upTo, live_eq_empty_iff, after_concat]
  exact or_congr_left (exists_congr (fun _ => (sole?_after_eq_some_iff _ _ _).symm))

/-- One round of the loop that returns: the choice is settled at the token it has come to. -/
theorem foretold_here {decision : Decision} {past rest : List Token} {token last : Token}
    (unsettled : ∀ index < past.length,
      ¬decision.SettledAt ((past ++ token :: rest).map Token.type) index)
    (settled : decision.SettledAt ((past ++ token :: rest).map Token.type) past.length) :
    decision.Foretold (past ++ token :: rest) past.length
      (decision.predictFrom (decision.after (past.map Token.type)) last (token :: rest)) := by
  have here : (past ++ token :: rest)[past.length]? = some token := by simp
  unfold predictFrom
  refine ⟨⟨settled, ?_⟩, ?_, ?_, ?_⟩
  · intro index other
    exact Nat.le_of_not_lt (fun earlier => unsettled index earlier other)
  · intro alternative single
    rw [take_types, ← sole?_after_eq_some_iff] at single
    rw [single]
  all_goals
    rw [take_types]
    intro several
    have unsure (alternative : Nat) :
        sole? (decision.after (past.map Token.type)) ≠ some alternative :=
      fun found => several alternative ((sole?_after_eq_some_iff _ _ _).mp found)
    have noSole := Option.eq_none_iff_forall_ne_some.mpr unsure
    have noneLeft := ((settledAt_length_iff _ _ _ _).mp settled).resolve_left
      (fun sure => sure.elim unsure)
    simp only [noSole, noneLeft, List.isEmpty_nil, if_true]
  · intro alternative least
    rw [(lowest?_complete_eq_some_iff _ _ _).mpr least]
  · intro unfinished
    have missing : lowest? ((decision.after (past.map Token.type)).filter
        decision.isComplete) = none := by
      apply Option.eq_none_iff_forall_ne_some.mpr
      intro alternative found
      have present := ((lowest?_complete_eq_some_iff _ _ _).mp found).1
      rw [unfinished] at present
      exact present
    exact ⟨token, here, by rw [missing]⟩

/-- One round of the loop that goes on: the tokens before it grow by one. -/
theorem predictFrom_of_unsettled {decision : Decision} {past rest : List Token} {token : Token}
    (last : Token)
    (unsettled : ¬decision.SettledAt ((past ++ token :: rest).map Token.type) past.length) :
    decision.predictFrom (decision.after (past.map Token.type)) last (token :: rest) =
      decision.predictFrom (decision.after ((past ++ [token]).map Token.type)) token rest := by
  rw [settledAt_length_iff, not_or, not_exists] at unsettled
  obtain ⟨several, alive⟩ := unsettled
  have going : ¬(decision.step (decision.after (past.map Token.type)) token.type).isEmpty =
      true := by
    rw [List.isEmpty_iff]
    exact alive
  rw [predictFrom, Option.eq_none_iff_forall_ne_some.mpr several, List.map_append,
    List.map_singleton, after_concat]
  simp only [if_neg going]

/-- The loop ends with the answer of the earliest settled place.  The induction is on the tokens
ahead; no place before them is settled, and none is left alive by all of them. -/
theorem predictFrom_foretold {decision : Decision} (past rest : List Token) (last : Token)
    (unsettled : ∀ index < past.length,
      ¬decision.SettledAt ((past ++ rest).map Token.type) index)
    (dead : decision.live ((past ++ rest).map Token.type) = ∅) (ahead : rest ≠ []) :
    ∃ place, decision.Foretold (past ++ rest) place
      (decision.predictFrom (decision.after (past.map Token.type)) last rest) := by
  induction rest generalizing past last with
  | nil => exact absurd rfl ahead
  | cons token rest ih =>
      by_cases settled :
          decision.SettledAt ((past ++ token :: rest).map Token.type) past.length
      · exact ⟨past.length, foretold_here unsettled settled⟩
      · rw [predictFrom_of_unsettled last settled, List.append_cons]
        rw [List.append_cons] at unsettled dead settled
        apply ih (past ++ [token]) token _ dead
        · intro done
          subst done
          apply settled
          right
          rw [List.append_nil] at dead ⊢
          rw [List.take_of_length_le (by simp)]
          exact dead
        · intro index before
          rw [List.length_append, List.length_singleton] at before
          rcases Nat.lt_succ_iff_lt_or_eq.mp before with earlier | same
          · exact unsettled index earlier
          · rw [same]
            exact settled

theorem endFree_slots {decision : Decision}
    (free : ∀ slots ∈ decision.alternatives, EndFree slots) (alternative : Nat) :
    EndFree (decision.slots alternative) := by
  unfold slots
  cases found : decision.alternatives[alternative]? with
  | none =>
      intro slot member
      cases member
  | some slots => exact free slots (List.mem_of_getElem? found)

/-- The end mark leaves no alternative. -/
theorem live_tokens_eq_empty {decision : Decision} {stream : TokenStream}
    (free : ∀ slots ∈ decision.alternatives, EndFree slots) (ended : stream.Ended) :
    decision.live (stream.tokens.map Token.type) = ∅ := by
  rw [Set.eq_empty_iff_forall_notMem, ended.map_type_tokens]
  intro alternative ⟨_, viable⟩
  exact (endFree_slots free alternative).not_viable_end _ viable

theorem predict_foretold {decision : Decision} {stream : TokenStream}
    (free : ∀ slots ∈ decision.alternatives, EndFree slots) (ended : stream.Ended) :
    ∃ place, decision.Foretold stream.tokens place (decision.predict stream.tokens) := by
  have ahead : stream.tokens ≠ [] := by simp [TokenStream.tokens]
  exact predictFrom_foretold [] stream.tokens _ (by intro index impossible; cases impossible)
    (live_tokens_eq_empty free ended) ahead

/-! ### Consequences of what is foretold -/

theorem live_subset_of_prefix {decision : Decision} {types more : List TokenType}
    (start : types <+: more) : decision.live more ⊆ decision.live types := by
  intro alternative member
  obtain ⟨within, suffix, word⟩ := member
  obtain ⟨others, same⟩ := start
  refine ⟨within, others ++ suffix, ?_⟩
  rw [← List.append_assoc, same]
  exact word

theorem finished_exists_least {decision : Decision} {types : List TokenType}
    {alternative : Nat} (member : alternative ∈ decision.finished types) :
    ∃ lowest, IsLeast (decision.finished types) lowest := by
  rcases (mem_finished_iff _ _ _).mp member with ⟨config, present, _⟩
  cases found : lowest? ((decision.after types).filter decision.isComplete) with
  | some lowest => exact ⟨lowest, (lowest?_complete_eq_some_iff _ _ _).mp found⟩
  | none =>
      have empty := List.map_eq_nil_iff.mp (List.min?_eq_none_iff.mp found)
      rw [empty] at present
      cases present

/-- An alternative that is foretold is the only one left, or the lowest that is finished. -/
theorem Foretold.alone_or_least {decision : Decision} {tokens : List Token}
    {place alternative : Nat} (foretold : decision.Foretold tokens place (.ok alternative)) :
    decision.live ((tokens.map Token.type).take place) = {alternative} ∨
      IsLeast (decision.finished ((tokens.map Token.type).take place)) alternative := by
  by_cases single : ∃ other, decision.live ((tokens.map Token.type).take place) = {other}
  · obtain ⟨other, only⟩ := single
    cases foretold.single other only
    exact Or.inl only
  · have several := not_exists.mp single
    rcases Set.eq_empty_or_nonempty
        (decision.finished ((tokens.map Token.type).take place)) with empty | nonempty
    · obtain ⟨token, _, impossible⟩ := foretold.stuck several empty
      cases impossible
    · obtain ⟨other, present⟩ := nonempty
      obtain ⟨lowest, least⟩ := finished_exists_least present
      cases foretold.lowest several lowest least
      exact Or.inr least

/-- A predicted alternative is one of the decision's. -/
theorem lt_of_predict_eq_ok {decision : Decision} {stream : TokenStream}
    (free : ∀ slots ∈ decision.alternatives, EndFree slots) (ended : stream.Ended)
    {alternative : Nat} (predicted : decision.predict stream.tokens = .ok alternative) :
    alternative < decision.alternatives.length := by
  obtain ⟨place, foretold⟩ := predict_foretold free ended
  rw [predicted] at foretold
  rcases foretold.alone_or_least with only | least
  · have member : alternative ∈ decision.live ((stream.tokens.map Token.type).take place) := by
      rw [only]
      exact Set.mem_singleton alternative
    exact member.1
  · exact least.1.1

/-- When all tokens together are a word of some alternative, the lowest such alternative is
predicted: until the end every such alternative stays live. -/
theorem predict_of_finished {decision : Decision} {stream : TokenStream}
    (free : ∀ slots ∈ decision.alternatives, EndFree slots) (ended : stream.Ended)
    {alternative : Nat} (member : alternative ∈ decision.finished stream.types) :
    ∃ lowest, decision.predict stream.tokens = .ok lowest ∧
      IsLeast (decision.finished stream.types) lowest := by
  obtain ⟨place, foretold⟩ := predict_foretold free ended
  have whole := ended.map_type_tokens
  have stays {index : Nat} (within : index ≤ stream.types.length) {other : Nat}
      (present : other ∈ decision.finished stream.types) :
      other ∈ decision.live ((stream.tokens.map Token.type).take index) := by
    rw [whole, List.take_append_of_le_length within]
    exact live_subset_of_prefix (List.take_prefix _ _) (finished_subset_live _ _ present)
  have inside : place ≤ stream.types.length := by
    apply foretold.earliest.2
    right
    rw [List.take_of_length_le (by rw [whole, List.length_append, List.length_singleton])]
    exact live_tokens_eq_empty free ended
  by_cases single : ∃ other,
      decision.live ((stream.tokens.map Token.type).take place) = {other}
  · obtain ⟨other, only⟩ := single
    have unique {candidate : Nat} (present : candidate ∈ decision.finished stream.types) :
        candidate = other := by
      have alive := stays inside present
      rw [only] at alive
      exact alive
    refine ⟨other, foretold.single other only, ?_, ?_⟩
    · rw [← unique member]
      exact member
    · intro candidate present
      exact Nat.le_of_eq (unique present).symm
  · -- earlier it could only be settled by the death of alternatives that stay live
    have atEnd : place = stream.types.length := by
      apply Nat.le_antisymm inside
      apply Nat.le_of_not_lt
      intro before
      rcases foretold.earliest.1 with alone | dead
      · exact single alone
      · have alive := stays before member
        rw [dead] at alive
        exact alive
    obtain ⟨lowest, least⟩ := finished_exists_least member
    refine ⟨lowest, foretold.lowest (not_exists.mp single) lowest ?_, least⟩
    rw [whole, atEnd, List.take_left]
    exact least

/-! ### The whole prediction -/

/-- Prediction is exact: its answer is the one that the languages of the alternatives foretell at
the earliest settled place, and its failure is reported as no viable alternative at the token
there.  Without alternatives it fails at the first token. -/
theorem predict_exact (decision : Decision) (stream : TokenStream)
    (free : ∀ slots ∈ decision.alternatives, EndFree slots) (ended : stream.Ended) :
    (∃ place, decision.Foretold stream.tokens place (decision.predict stream.tokens)) ∧
      (∀ token, decision.predict stream.tokens = .error token →
        ∀ vocabulary, Recognizer.settle vocabulary decision stream =
          .ok { alternative := none
                diagnostics := [Diagnostic.noViableAlternative token] }) ∧
      (decision.alternatives = [] →
        ∃ first, stream.tokens.head? = some first ∧
          decision.predict stream.tokens = .error first) := by
  obtain ⟨place, foretold⟩ := predict_foretold free ended
  refine ⟨⟨place, foretold⟩, ?_, ?_⟩
  · intro token failed vocabulary
    unfold Recognizer.settle
    rw [failed]
  · intro empty
    have dead (types : List TokenType) : decision.live types = ∅ := by
      rw [Set.eq_empty_iff_forall_notMem]
      intro alternative member
      have within := member.1
      rw [empty] at within
      cases within
    have unfinished (types : List TokenType) : decision.finished types = ∅ :=
      Set.subset_eq_empty (fun _ member => finished_subset_live _ _ member) (dead types)
    have first : place = 0 := Nat.le_zero.mp (foretold.earliest.2 (Or.inr (dead _)))
    obtain ⟨token, present, failed⟩ := foretold.stuck
      (fun alternative => by rw [dead]; exact (Set.singleton_ne_empty alternative).symm)
      (unfinished _)
    rw [first] at present
    exact ⟨token, by rw [List.head?_eq_getElem?, present], failed⟩

/-- Two alternatives that open alike with different loops, and one that two tokens finish. -/
private def overlapping : Decision :=
  { alternatives :=
      [[⟨TokenType.ofIndex 0, .zeroOrMore⟩, ⟨TokenType.ofIndex 1, .once⟩],
        [⟨TokenType.ofIndex 0, .oneOrMore⟩, ⟨TokenType.ofIndex 2, .oneOrMore⟩],
        [⟨TokenType.ofIndex 0, .once⟩, ⟨TokenType.ofIndex 0, .once⟩]] }

private def twoTokens : TokenStream :=
  { body :=
      [⟨TokenType.ofIndex 0, "a", ⟨1, 0⟩⟩, ⟨TokenType.ofIndex 0, "a", ⟨1, 1⟩⟩]
    last := Token.endOfInput ⟨1, 2⟩ }

theorem predict_exact_overlapping :
    (∀ slots ∈ overlapping.alternatives, EndFree slots) ∧ twoTokens.Ended ∧
      ∃ place, overlapping.Foretold twoTokens.tokens place (.ok 2) := by
  have free : ∀ slots ∈ overlapping.alternatives, EndFree slots := by decide
  have ended : twoTokens.Ended := ⟨by decide, by decide⟩
  have answer : overlapping.predict twoTokens.tokens = .ok 2 := by decide
  have exact := (predict_exact overlapping twoTokens free ended).1
  rw [answer] at exact
  exact ⟨free, ended, exact⟩

end LiteralGrammar.Decision
