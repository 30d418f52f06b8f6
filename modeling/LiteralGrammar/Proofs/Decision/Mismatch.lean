/-
Where a match fails.

A match that fails has read the tokens up to the one it fails at and no others,
so it fails in the same way whatever follows.  Hence, where no slot is starved,
no word starts with the tokens read: on a stream with such a word matching would
complete.  Prediction stops before that token, for the tokens that it has read
for its choice start a word of the alternative chosen.
-/

import LiteralGrammar.Proofs.Decision.Greedy
import LiteralGrammar.Proofs.Decision.Prediction

namespace LiteralGrammar

theorem TokenStream.getElem?_tokens (stream : TokenStream) {index : Nat}
    (within : index ≤ stream.body.length) :
    stream.tokens[index]? = some (stream.body[index]?.getD stream.last) := by
  unfold tokens
  rcases Nat.lt_or_eq_of_le within with inside | atEnd
  · rw [List.getElem?_append_left inside, List.getElem?_eq_getElem inside, Option.getD_some]
  · rw [atEnd, List.getElem?_concat_length, List.getElem?_eq_none (Nat.le_refl _),
      Option.getD_none]

theorem TokenStream.Ended.take_types {stream : TokenStream} (ended : stream.Ended) {count : Nat}
    (within : count ≤ stream.body.length) :
    (stream.tokens.map Token.type).take count = stream.types.take count := by
  rw [ended.map_type_tokens, List.take_append_of_le_length (by
    rw [types, List.length_map]
    exact within)]

/-! ### What a slot takes of a shorter stream -/

theorem Slot.takes_take (slot : Slot) (types : List TokenType) (count : Nat) :
    slot.takes (types.take count) = min count (slot.takes types) := by
  unfold takes
  by_cases loops : slot.repetition.loops = true
  · rw [if_pos loops, if_pos loops, ← List.take_takeWhile, List.length_take]
  · rw [if_neg loops, if_neg loops]
    cases count with
    | zero => simp
    | succ count =>
        rw [List.head?_take, if_neg (Nat.succ_ne_zero count)]
        split <;> omega

/-- A slot that stops before some place takes as much of any stream that agrees up to there. -/
theorem Slot.takes_eq_of_take {slot : Slot} {types others : List TokenType} {count : Nat}
    (within : slot.takes types ≤ count) (same : others.take (count + 1) = types.take (count + 1)) :
    slot.takes others = slot.takes types := by
  have bounded := congrArg slot.takes same
  rw [takes_take, takes_take] at bounded
  omega

namespace Decision

/-! ### A match that fails -/

theorem le_of_mismatch {last found : Token} {slots : List Slot} {index place : Nat}
    {rest : List Token} {expected : TokenType}
    (apart : ∀ slot ∈ slots, last.type ≠ slot.type)
    (failed : matchFrom last slots index rest = .mismatch place found expected) :
    index ≤ place := by
  obtain ⟨count, _, ⟨result, _⟩ | ⟨slot, result, _⟩⟩ := matchFrom_cases index rest apart
  · rw [result] at failed
    cases failed
  · rw [result, MatchResult.mismatch.injEq] at failed
    omega

/-- A match that fails looks no further than the token it fails at.  The induction is on the
slots; those that have matched have stopped before that token. -/
theorem matchFrom_eq_of_take {last found : Token} {slots : List Slot} {index count : Nat}
    {rest others : List Token} {expected : TokenType}
    (apart : ∀ slot ∈ slots, last.type ≠ slot.type)
    (failed : matchFrom last slots index rest = .mismatch (index + count) found expected)
    (same : others.take (count + 1) = rest.take (count + 1)) :
    matchFrom last slots index others = .mismatch (index + count) found expected := by
  induction slots generalizing index count rest others with
  | nil => cases failed
  | cons slot later ih =>
      have here := apart slot List.mem_cons_self
      have beyond := fun other member => apart other (List.mem_cons_of_mem slot member)
      have sameTypes := congrArg (List.map Token.type) same
      rw [List.map_take, List.map_take] at sameTypes
      by_cases allowed : slot.repetition.Allows (slot.takes (rest.map Token.type))
      · rw [matchFrom_of_allows here allowed] at failed
        -- the match goes on from behind what the slot has taken, so it cannot fail before that
        have reached := Nat.le_of_add_le_add_left (le_of_mismatch beyond failed)
        have taken := Slot.takes_eq_of_take reached sameTypes
        obtain ⟨further, place⟩ := Nat.exists_eq_add_of_le reached
        rw [place, ← Nat.add_assoc] at failed
        rw [matchFrom_of_allows here (by rw [taken]; exact allowed), taken, place,
          ← Nat.add_assoc]
        apply ih beyond failed
        rw [place, Nat.add_assoc] at same
        have dropped := congrArg (List.drop (slot.takes (rest.map Token.type))) same
        rwa [List.drop_take, List.drop_take, Nat.add_sub_cancel_left] at dropped
      · rw [matchFrom_of_not_allows here allowed, MatchResult.mismatch.injEq] at failed
        obtain ⟨place, head, type⟩ := failed
        have first : others.head? = rest.head? := by
          have heads := congrArg List.head? same
          rwa [List.head?_take, List.head?_take, if_neg (Nat.succ_ne_zero count),
            if_neg (Nat.succ_ne_zero count)] at heads
        have refused : ¬slot.repetition.Allows (slot.takes (others.map Token.type)) := by
          rw [slot.allows_takes_iff, List.head?_map] at allowed ⊢
          rwa [first]
        rw [matchFrom_of_not_allows here refused, first, head, type, ← place]

theorem exists_tokens (types : List TokenType) :
    ∃ tokens : List Token, tokens.map Token.type = types :=
  ⟨types.map (fun type => ⟨type, "", Position.start⟩), by
    rw [List.map_map]
    exact List.map_id types⟩

/-- Where no slot is starved, no word starts with the tokens up to the one a match fails at. -/
theorem not_viable_of_mismatch {last found : Token} {slots : List Slot} {index count : Nat}
    {rest : List Token} {expected : TokenType}
    (apart : ∀ slot ∈ slots, last.type ≠ slot.type) (fed : ¬Starves (repetitions slots))
    (failed : matchFrom last slots index rest = .mismatch (index + count) found expected)
    (inside : count < rest.length) :
    ¬Viable slots ((rest.map Token.type).take (count + 1)) := by
  intro ⟨suffix, word⟩
  obtain ⟨after, types⟩ := exists_tokens suffix
  have agrees : (rest.take (count + 1) ++ after).take (count + 1) = rest.take (count + 1) :=
    List.take_left' (by rw [List.length_take]; omega)
  have start : (rest.map Token.type).take (count + 1) ++ suffix =
      (rest.take (count + 1) ++ after).map Token.type := by
    rw [List.map_append, List.map_take, types]
  rw [start] at word
  obtain ⟨consumed, complete⟩ := matchFrom_complete apart fed word List.prefix_rfl
  have again := matchFrom_eq_of_take apart failed agrees
  rw [again] at complete
  cases complete

/-! ### A match of a whole stream -/

theorem LeadsTo.viable {slots : List Slot} {slot : Slot} {types : List TokenType}
    (leads : LeadsTo slots types slot) : Viable slots types := by
  obtain ⟨earlier, later, same, word, _⟩ := leads
  refine ⟨shortestWord (slot :: later), ?_⟩
  rw [same]
  exact word.append (word_shortestWord (slot :: later))

/-- The types before some place start a word, and with the type there they start none. -/
structure FirstImpossible (slots : List Slot) (types : List TokenType) (place : Nat) : Prop where
  possible : Viable slots (types.take place)
  impossible : ¬Viable slots (types.take (place + 1))

/-- What starts a word goes no further than up to the first impossible place. -/
theorem FirstImpossible.le_of_viable {slots : List Slot} {types : List TokenType}
    {place index : Nat} (first : FirstImpossible slots types place)
    (viable : Viable slots (types.take index)) : index ≤ place := by
  apply Nat.le_of_not_lt
  intro beyond
  obtain ⟨suffix, word⟩ := viable
  obtain ⟨others, same⟩ := List.take_prefix_take_left (l := types) (Nat.succ_le_of_lt beyond)
  refine first.impossible ⟨others ++ suffix, ?_⟩
  rwa [← List.append_assoc, same]

/-- A match fails at a token of the stream that has another type than a slot which must match
there.  It is the first impossible one, unless a slot is starved. -/
theorem matchSlots_mismatch {slots : List Slot} {stream : TokenStream} (free : EndFree slots)
    (ended : stream.Ended) {place : Nat} {found : Token} {expected : TokenType}
    (failed : matchSlots slots stream = .mismatch place found expected) :
    stream.tokens[place]? = some found ∧ found.type ≠ expected ∧
      (∃ slot, slot.type = expected ∧
        LeadsTo slots ((stream.tokens.map Token.type).take place) slot) ∧
      (¬Starves (repetitions slots) →
        FirstImpossible slots (stream.tokens.map Token.type) place) := by
  have apart := free.apart ended
  obtain ⟨count, within, ⟨result, _⟩ | ⟨slot, result, leads, different⟩⟩ :=
    matchFrom_cases 0 stream.body apart
  · have impossible := result.symm.trans failed
    cases impossible
  · have same := result.symm.trans failed
    rw [MatchResult.mismatch.injEq, Nat.zero_add] at same
    obtain ⟨place, token, type⟩ := same
    rw [token, type] at different
    rw [← place, ended.take_types within]
    refine ⟨?_, different, ⟨slot, type, leads⟩, fun fed => ⟨?_, ?_⟩⟩
    · rw [stream.getElem?_tokens within, token]
    · rw [ended.take_types within]
      exact leads.viable
    · rcases Nat.lt_or_eq_of_le within with inside | atEnd
      · rw [ended.take_types inside]
        exact not_viable_of_mismatch apart fed result inside
      · rw [List.take_of_length_le (by simp [TokenStream.tokens, atEnd]),
          ended.map_type_tokens]
        exact free.not_viable_end stream.types

/-! ### Prediction and the match of its choice -/

/-- A match that fails although no slot is starved fails no earlier than prediction has read, and
its alternative was not chosen for being finished: it is finished nowhere. -/
theorem Foretold.le_mismatch {decision : Decision} {stream : TokenStream}
    (free : ∀ slots ∈ decision.alternatives, EndFree slots) (ended : stream.Ended)
    {predicted chosen : Nat} (foretold : decision.Foretold stream.tokens predicted (.ok chosen))
    (fed : ¬Starves (repetitions (decision.slots chosen)))
    {place : Nat} {found : Token} {expected : TokenType}
    (failed : matchSlots (decision.slots chosen) stream = .mismatch place found expected) :
    predicted ≤ place ∧
      decision.live ((stream.tokens.map Token.type).take predicted) = {chosen} ∧
      ∀ count, chosen ∉ decision.finished ((stream.tokens.map Token.type).take count) := by
  have slotsFree := endFree_slots free chosen
  obtain ⟨present, _, _, first⟩ := matchSlots_mismatch slotsFree ended failed
  have unfinished (count : Nat) :
      chosen ∉ decision.finished ((stream.tokens.map Token.type).take count) := by
    intro member
    have upTo := (first fed).le_of_viable (finished_subset_live _ _ member).2
    have inside := (List.getElem?_eq_some_iff.mp present).1
    rw [TokenStream.tokens, List.length_append, List.length_singleton] at inside
    have start : (stream.tokens.map Token.type).take count <+: stream.types := by
      rw [ended.take_types (by omega)]
      exact List.take_prefix _ _
    obtain ⟨consumed, complete⟩ :=
      matchFrom_complete (slotsFree.apart ended) fed member.2 start
    have impossible := failed.symm.trans complete
    cases impossible
  have alone := foretold.alone_or_least.resolve_right
    (fun least => unfinished predicted least.1)
  have alive : chosen ∈ decision.live ((stream.tokens.map Token.type).take predicted) := by
    rw [alone]
    exact Set.mem_singleton chosen
  exact ⟨(first fed).le_of_viable alive.2, alone, unfinished⟩

end Decision

end LiteralGrammar
