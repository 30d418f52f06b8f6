/-
Greedy matching against the language of an alternative.

A match that completes has consumed a word, and one that fails has come to a slot
that must match.  Greedy matching completes on every stream that starts with a
word exactly when no slot that loops starves a later one.  On an alternative with
such a slot the shortest word is a stream on which it fails, because the loop
takes a token that the shortest word keeps for the later slot.
-/

import LiteralGrammar.Decision.Matching
import LiteralGrammar.Proofs.Decision.Places

namespace LiteralGrammar

namespace Slot

/-- How many of the types ahead a slot takes. -/
def takes (slot : Slot) (types : List TokenType) : Nat :=
  if slot.repetition.loops then (types.takeWhile (fun type => type = slot.type)).length
  else if types.head? = some slot.type then 1 else 0

theorem takes_le (slot : Slot) (types : List TokenType) :
    slot.takes types ≤ types.length := by
  unfold takes
  split
  · exact (List.takeWhile_prefix _).length_le
  · split
    · cases types with
      | nil => simp_all
      | cons head tail => simp
    · exact Nat.zero_le _

theorem take_takes (slot : Slot) (types : List TokenType) :
    types.take (slot.takes types) = List.replicate (slot.takes types) slot.type := by
  unfold takes
  split
  · rw [List.prefix_iff_eq_take.mp (List.takeWhile_prefix (fun type => type = slot.type)) |>.symm]
    exact List.eq_replicate_of_mem (fun type member =>
      of_decide_eq_true (List.all_eq_true.mp List.all_takeWhile type member))
  · split
    · rename_i first
      rcases List.head?_eq_some_iff.mp first with ⟨tail, same⟩
      rw [same]
      rfl
    · rfl

theorem takes_pos_iff (slot : Slot) (types : List TokenType) :
    0 < slot.takes types ↔ types.head? = some slot.type := by
  unfold takes
  cases types with
  | nil => simp
  | cons head tail =>
      by_cases same : head = slot.type
      · simp [same]
        split <;> omega
      · simp [same]

/-- What a slot takes is enough for it unless it needs a match and finds none. -/
theorem allows_takes_iff (slot : Slot) (types : List TokenType) :
    slot.repetition.Allows (slot.takes types) ↔
      slot.repetition.isOptional = true ∨ types.head? = some slot.type := by
  rw [← takes_pos_iff]
  cases repetition : slot.repetition with
  | once =>
      have bound : slot.takes types ≤ 1 := by
        unfold takes
        rw [repetition]
        simp only [Repetition.loops, Bool.false_eq_true, if_false]
        split <;> omega
      simp only [Repetition.Allows, Repetition.isOptional, Bool.false_eq_true, false_or]
      omega
  | zeroOrMore => simp [Repetition.Allows, Repetition.isOptional]
  | oneOrMore => simp [Repetition.Allows, Repetition.isOptional]

theorem allows_takes_of_word {slot : Slot} {count : Nat} {ahead : List TokenType}
    (allowed : slot.repetition.Allows count) :
    slot.repetition.Allows (slot.takes (List.replicate count slot.type ++ ahead)) := by
  rw [slot.allows_takes_iff]
  cases count with
  | zero => exact Or.inl ((Repetition.allows_zero_iff _).mp allowed)
  | succ count => exact Or.inr rfl

/-- A slot that loops takes the matches it is given and the run of its type that follows them. -/
theorem drop_takes_of_loops {slot : Slot} (loops : slot.repetition.loops = true)
    (count : Nat) (ahead : List TokenType) :
    (List.replicate count slot.type ++ ahead).drop
        (slot.takes (List.replicate count slot.type ++ ahead)) =
      ahead.dropWhile (fun type => type = slot.type) := by
  have drops (types : List TokenType) : types.drop (slot.takes types) =
      types.dropWhile (fun type => type = slot.type) := by
    unfold takes
    rw [if_pos loops]
    calc
      types.drop (types.takeWhile (fun type => type = slot.type)).length =
          (types.takeWhile (fun type => type = slot.type) ++
            types.dropWhile (fun type => type = slot.type)).drop
              (types.takeWhile (fun type => type = slot.type)).length := by
        rw [List.takeWhile_append_dropWhile]
      _ = types.dropWhile (fun type => type = slot.type) := List.drop_left
  rw [drops, List.dropWhile_append_of_pos]
  intro type member
  simp [List.eq_of_mem_replicate member]

/-- A slot that loops takes more than the matches it is given when its type comes once more. -/
theorem lt_takes_of_loops {slot : Slot} (loops : slot.repetition.loops = true) (count : Nat)
    (tail : List TokenType) :
    count < slot.takes (List.replicate count slot.type ++ slot.type :: tail) := by
  unfold takes
  rw [if_pos loops, List.takeWhile_append_of_pos (by
    intro type member
    simp [List.eq_of_mem_replicate member])]
  simp

theorem drop_takes_of_single {slot : Slot} (single : ¬slot.repetition.loops = true)
    {count : Nat} (allowed : slot.repetition.Allows count) (ahead : List TokenType) :
    (List.replicate count slot.type ++ ahead).drop
        (slot.takes (List.replicate count slot.type ++ ahead)) = ahead := by
  have taken : slot.takes (slot.type :: ahead) = 1 := by
    unfold takes
    rw [if_neg single, if_pos List.head?_cons]
  rw [Repetition.eq_one_of_allows allowed single]
  change (slot.type :: ahead).drop (slot.takes (slot.type :: ahead)) = ahead
  rw [taken, List.drop_one, List.tail_cons]

end Slot

namespace Decision

/-! ### One slot of a match -/

private theorem current_iff {last : Token} {type : TokenType} {rest : List Token}
    (apart : last.type ≠ type) :
    (rest.head?.getD last).type = type ↔ (rest.map Token.type).head? = some type := by
  cases rest with
  | nil =>
      constructor
      · intro same
        exact absurd same apart
      · intro impossible
        cases impossible
  | cons token rest => simp

/-- The loop of a match over one slot that gets enough. -/
theorem matchFrom_of_allows {last : Token} {slot : Slot} {later : List Slot} {index : Nat}
    {rest : List Token} (apart : last.type ≠ slot.type)
    (allowed : slot.repetition.Allows (slot.takes (rest.map Token.type))) :
    matchFrom last (slot :: later) index rest =
      matchFrom last later (index + slot.takes (rest.map Token.type))
        (rest.drop (slot.takes (rest.map Token.type))) := by
  have enough := (slot.allows_takes_iff _).mp allowed
  rw [← current_iff apart] at enough
  have proceeds : ¬(!slot.repetition.isOptional &&
      decide ((rest.head?.getD last).type ≠ slot.type)) = true := by
    rcases enough with optional | found
    · simp [optional]
    · simp [found]
  rw [matchFrom]
  simp only [if_neg proceeds]
  by_cases loops : slot.repetition.loops = true
  · have ends : ¬((rest.drop (rest.takeWhile (fun token =>
        decide (token.type = slot.type))).length).isEmpty &&
        decide (last.type = slot.type)) = true := by
      simp [apart]
    have taken : slot.takes (rest.map Token.type) =
        (rest.takeWhile (fun token => decide (token.type = slot.type))).length := by
      unfold Slot.takes
      rw [if_pos loops, List.takeWhile_map, List.length_map]
      rfl
    rw [if_pos loops, if_neg ends, taken]
  · have needed : slot.repetition.isOptional = false := by
      rw [Repetition.eq_once_of_not_loops loops]
      rfl
    have found := (current_iff apart).mp (enough.resolve_left (by simp [needed]))
    have single : slot.takes (rest.map Token.type) = 1 := by
      unfold Slot.takes
      rw [if_neg loops, if_pos found]
    rw [if_neg loops, single]

theorem matchFrom_of_refused {last : Token} {slot : Slot} {later : List Slot} {index : Nat}
    {rest : List Token} (needed : slot.repetition.isOptional = false)
    (different : (rest.head?.getD last).type ≠ slot.type) :
    matchFrom last (slot :: later) index rest =
      .mismatch index (rest.head?.getD last) slot.type := by
  rw [matchFrom]
  exact if_pos (by simp [needed, different])

theorem matchFrom_of_not_allows {last : Token} {slot : Slot} {later : List Slot} {index : Nat}
    {rest : List Token} (apart : last.type ≠ slot.type)
    (refused : ¬slot.repetition.Allows (slot.takes (rest.map Token.type))) :
    matchFrom last (slot :: later) index rest =
      .mismatch index (rest.head?.getD last) slot.type := by
  rw [slot.allows_takes_iff, ← current_iff apart, not_or] at refused
  exact matchFrom_of_refused (Bool.eq_false_iff.mpr refused.1) refused.2

/-! ### What a match comes to -/

/-- Whether some types lead to a slot that must match: they are a word of the slots before it. -/
def LeadsTo (slots : List Slot) (types : List TokenType) (slot : Slot) : Prop :=
  ∃ earlier later, slots = earlier ++ slot :: later ∧ Word earlier types ∧
    slot.repetition.isOptional = false

theorem LeadsTo.cons {slot wanted : Slot} {later : List Slot} {types : List TokenType}
    {count : Nat} (leads : LeadsTo later types wanted) (allowed : slot.repetition.Allows count) :
    LeadsTo (slot :: later) (List.replicate count slot.type ++ types) wanted := by
  obtain ⟨earlier, rest, same, word, needed⟩ := leads
  exact ⟨slot :: earlier, rest, by rw [same, List.cons_append], Word.cons slot count allowed word,
    needed⟩

/-- A match has consumed a word, or has come to a slot that must match and found another type
there.  The induction is on the slots; each takes a run of its own type. -/
theorem matchFrom_cases {last : Token} {slots : List Slot} (index : Nat) (rest : List Token)
    (apart : ∀ slot ∈ slots, last.type ≠ slot.type) :
    ∃ count ≤ rest.length,
      (matchFrom last slots index rest = .complete (index + count) ∧
        Word slots ((rest.map Token.type).take count)) ∨
      ∃ slot, matchFrom last slots index rest =
          .mismatch (index + count) (rest[count]?.getD last) slot.type ∧
        LeadsTo slots ((rest.map Token.type).take count) slot ∧
        (rest[count]?.getD last).type ≠ slot.type := by
  induction slots generalizing index rest with
  | nil => exact ⟨0, Nat.zero_le _, Or.inl ⟨rfl, Word.nil⟩⟩
  | cons slot later ih =>
      have here := apart slot List.mem_cons_self
      by_cases allowed : slot.repetition.Allows (slot.takes (rest.map Token.type))
      · obtain ⟨count, within, result⟩ :=
          ih (index + slot.takes (rest.map Token.type))
            (rest.drop (slot.takes (rest.map Token.type)))
            (fun other member => apart other (List.mem_cons_of_mem slot member))
        have bound := slot.takes_le (rest.map Token.type)
        rw [List.length_map] at bound
        rw [List.length_drop] at within
        refine ⟨slot.takes (rest.map Token.type) + count, by omega, ?_⟩
        rw [matchFrom_of_allows here allowed, List.take_add, slot.take_takes, ← List.map_drop,
          ← Nat.add_assoc]
        rcases result with ⟨complete, word⟩ | ⟨wanted, failed, leads, different⟩
        · exact Or.inl ⟨complete, Word.cons slot _ allowed word⟩
        · rw [List.getElem?_drop] at failed different
          exact Or.inr ⟨wanted, failed, leads.cons allowed, different⟩
      · refine ⟨0, Nat.zero_le _, Or.inr ⟨slot, ?_, ?_, ?_⟩⟩
        · rw [matchFrom_of_not_allows here allowed, List.head?_eq_getElem?, Nat.add_zero]
        all_goals
          rw [slot.allows_takes_iff, ← current_iff here, not_or] at allowed
        · exact ⟨[], later, rfl, Word.nil, Bool.eq_false_iff.mpr allowed.1⟩
        · rw [← List.head?_eq_getElem?]
          exact allowed.2

/-- A completed match has consumed a word. -/
theorem word_of_matchFrom {last : Token} {slots : List Slot} {index consumed : Nat}
    {rest : List Token} (apart : ∀ slot ∈ slots, last.type ≠ slot.type)
    (complete : matchFrom last slots index rest = .complete consumed) :
    ∃ count ≤ rest.length, consumed = index + count ∧
      Word slots ((rest.map Token.type).take count) := by
  obtain ⟨count, within, ⟨result, word⟩ | ⟨slot, result, _⟩⟩ := matchFrom_cases index rest apart
  · rw [result] at complete
    cases complete
    exact ⟨count, within, rfl, word⟩
  · rw [result] at complete
    cases complete

/-- Matching comes to an end where the end of the input is not asked for. -/
theorem matchFrom_ne_endless {last : Token} {slots : List Slot} {index : Nat}
    {rest : List Token} (apart : ∀ slot ∈ slots, last.type ≠ slot.type) :
    matchFrom last slots index rest ≠ .endless := by
  intro endless
  obtain ⟨count, _, ⟨result, _⟩ | ⟨slot, result, _⟩⟩ := matchFrom_cases index rest apart
  all_goals
    rw [result] at endless
    cases endless

/-! ### Streams on which a match completes -/

private theorem dropWhile_of_head {tail : List TokenType} {type other : TokenType}
    (different : other ≠ type) :
    (other :: tail).dropWhile (fun found => found = type) = other :: tail :=
  List.dropWhile_cons_of_neg (by simp [different])

private theorem prefix_dropWhile {word types : List TokenType} (type : TokenType)
    (start : word <+: types) :
    word.dropWhile (fun found => found = type) <+: types.dropWhile (fun found => found = type) := by
  obtain ⟨after, same⟩ := start
  rw [← same, List.dropWhile_append]
  split
  · rename_i empty
    rw [List.isEmpty_iff.mp empty]
    exact List.nil_prefix
  · exact List.prefix_append _ after

/-- A run of a type in front of a word can go when no slot waits for that type: the slots of that
type before the first needed one can all be skipped. -/
theorem word_dropWhile {slots : List Slot} {type : TokenType} {word : List TokenType}
    (sheltered : ¬Awaits type (repetitions slots)) (given : Word slots word) :
    Word slots (word.dropWhile (fun found => found = type)) := by
  induction given with
  | nil => exact Word.nil
  | @cons slot count rest word allowed later ih =>
      by_cases optional : slot.repetition.isOptional = true
      · have deeper : ¬Awaits type (repetitions rest) := fun waits =>
          sheltered ((awaits_cons_of_optional optional).mpr waits)
        have skipped := Word.cons slot 0 ((Repetition.allows_zero_iff _).mpr optional) (ih deeper)
        by_cases sameType : slot.type = type
        · rw [List.dropWhile_append_of_pos (by
            intro found member
            simp [List.eq_of_mem_replicate member, sameType])]
          exact skipped
        · cases count with
          | zero => exact skipped
          | succ count =>
              rw [List.replicate_succ, List.cons_append, dropWhile_of_head sameType]
              exact Word.cons slot (count + 1) allowed later
      · have needed : slot.repetition.isOptional = false := Bool.eq_false_iff.mpr optional
        have different : slot.type ≠ type := fun sameType =>
          sheltered ((awaits_cons_of_needed needed).mpr sameType)
        cases count with
        | zero => exact absurd ((Repetition.allows_zero_iff _).mp allowed) optional
        | succ count =>
            rw [List.replicate_succ, List.cons_append, dropWhile_of_head different]
            exact Word.cons slot (count + 1) allowed later

/-- Matching completes on what starts with a word when no slot is starved. -/
theorem matchFrom_complete {last : Token} {slots : List Slot} {index : Nat} {rest : List Token}
    {word : List TokenType} (apart : ∀ slot ∈ slots, last.type ≠ slot.type)
    (fed : ¬Starves (repetitions slots)) (given : Word slots word)
    (start : word <+: rest.map Token.type) :
    ∃ consumed, matchFrom last slots index rest = .complete consumed := by
  induction slots generalizing index rest word with
  | nil => exact ⟨index, rfl⟩
  | cons slot later ih =>
      rcases (word_cons_iff _ _ _).mp given with ⟨count, others, allowed, laterWord, same⟩
      obtain ⟨after, split⟩ := start
      rw [same, List.append_assoc] at split
      have enough : slot.repetition.Allows (slot.takes (rest.map Token.type)) := by
        rw [← split]
        exact Slot.allows_takes_of_word allowed
      have handed : ∃ other, Word later other ∧
          other <+: (rest.drop (slot.takes (rest.map Token.type))).map Token.type := by
        rw [List.map_drop, ← split]
        by_cases loops : slot.repetition.loops = true
        · rw [Slot.drop_takes_of_loops loops]
          exact ⟨_, word_dropWhile (fun waits => fed (Or.inl ⟨loops, waits⟩)) laterWord,
            prefix_dropWhile slot.type (List.prefix_append others after)⟩
        · rw [Slot.drop_takes_of_single loops allowed]
          exact ⟨others, laterWord, List.prefix_append others after⟩
      obtain ⟨other, otherWord, otherStart⟩ := handed
      rw [matchFrom_of_allows (apart slot List.mem_cons_self) enough]
      exact ih (fun next member => apart next (List.mem_cons_of_mem slot member))
        (fun starves => fed (Or.inr starves)) otherWord otherStart

/-! ### Streams on which a starved match fails -/

theorem shortestWord_length_le {slots : List Slot} {word : List TokenType}
    (given : Word slots word) : (shortestWord slots).length ≤ word.length := by
  induction given with
  | nil => exact Nat.le_refl _
  | cons slot count allowed _ ih =>
      have least := Repetition.least_le_of_allows allowed
      simp only [shortestWord_cons, List.length_append, List.length_replicate]
      omega

theorem shortestWord_of_awaits {slots : List Slot} {type : TokenType}
    (waits : Awaits type (repetitions slots)) :
    ∃ tail, shortestWord slots = type :: tail := by
  induction slots with
  | nil => exact absurd waits (not_awaits_nil type)
  | cons slot rest ih =>
      rw [shortestWord_cons, Repetition.least_eq]
      cases optional : slot.repetition.isOptional with
      | true => exact ih ((awaits_cons_of_optional optional).mp waits)
      | false =>
          have same : slot.type = type := (awaits_cons_of_needed optional).mp waits
          rw [same]
          exact ⟨shortestWord rest, rfl⟩

/-- On the shortest word no slot can take more than it needs, or too little is left for the slots
after it; but a slot that loops takes the token of a later slot that it starves. -/
theorem matchFrom_shortestWord_ne_complete {last : Token} {slots : List Slot} {index : Nat}
    {rest : List Token} (apart : ∀ slot ∈ slots, last.type ≠ slot.type)
    (starves : Starves (repetitions slots)) (same : rest.map Token.type = shortestWord slots)
    (consumed : Nat) : matchFrom last slots index rest ≠ .complete consumed := by
  induction slots generalizing index rest with
  | nil => exact absurd starves id
  | cons slot later ih =>
      intro complete
      have here := apart slot List.mem_cons_self
      have beyond := fun other member => apart other (List.mem_cons_of_mem slot member)
      by_cases allowed : slot.repetition.Allows (slot.takes (rest.map Token.type))
      · rw [matchFrom_of_allows here allowed] at complete
        have least : slot.takes (rest.map Token.type) = slot.repetition.least := by
          obtain ⟨count, within, _, word⟩ := word_of_matchFrom beyond complete
          have enough := shortestWord_length_le word
          have total := congrArg List.length same
          have atLeast := Repetition.least_le_of_allows allowed
          have atMost := slot.takes_le (rest.map Token.type)
          simp only [shortestWord_cons, List.length_append, List.length_replicate,
            List.length_map, List.length_take, List.length_drop] at enough total atMost
          omega
        rw [shortestWord_cons] at same
        rcases starves with ⟨loops, waits⟩ | deeper
        · obtain ⟨tail, opens⟩ := shortestWord_of_awaits waits
          have more := Slot.lt_takes_of_loops loops slot.repetition.least tail
          rw [← opens, ← same, least] at more
          exact Nat.lt_irrefl _ more
        · rw [least] at complete
          refine ih beyond deeper ?_ complete
          rw [List.map_drop, same, List.drop_left' List.length_replicate]
      · rw [matchFrom_of_not_allows here allowed] at complete
        cases complete

/-! ### Matching an alternative -/

theorem EndFree.apart {slots : List Slot} {stream : TokenStream} (free : EndFree slots)
    (ended : stream.Ended) : ∀ slot ∈ slots, stream.last.type ≠ slot.type := by
  intro slot member same
  rw [ended.last] at same
  exact free slot member same.symm

/-- A match that completes has consumed a prefix of the tokens that is a word.  It completes on
every stream that starts with a word exactly when no slot is starved. -/
theorem matchSlots_exact (slots : List Slot) (free : EndFree slots) :
    (∀ stream : TokenStream, stream.Ended → ∀ consumed,
      matchSlots slots stream = .complete consumed →
        consumed ≤ stream.body.length ∧ Word slots (stream.types.take consumed)) ∧
      ((∀ stream : TokenStream, stream.Ended →
          (∃ word, Word slots word ∧ word <+: stream.types) →
          ∃ consumed, matchSlots slots stream = .complete consumed) ↔
        ¬Starves (repetitions slots)) := by
  refine ⟨?_, ?_, ?_⟩
  · intro stream ended consumed complete
    obtain ⟨count, within, same, word⟩ := word_of_matchFrom (free.apart ended) complete
    rw [Nat.zero_add] at same
    rw [same]
    exact ⟨within, word⟩
  · intro completes starves
    let stream : TokenStream :=
      { body := (shortestWord slots).map (fun type => ⟨type, "", Position.start⟩)
        last := Token.endOfInput Position.start }
    have types : stream.types = shortestWord slots := by
      change ((shortestWord slots).map _).map Token.type = _
      rw [List.map_map]
      exact List.map_id _
    have ended : stream.Ended := by
      refine ⟨?_, rfl⟩
      intro token member
      have inside : token.type ∈ shortestWord slots := by
        rw [← types]
        exact List.mem_map_of_mem member
      obtain ⟨slot, present, same⟩ := exists_slot_of_mem_word (word_shortestWord slots) inside
      rw [← same]
      exact free slot present
    obtain ⟨consumed, complete⟩ := completes stream ended
      ⟨shortestWord slots, word_shortestWord slots, [], by rw [types, List.append_nil]⟩
    exact matchFrom_shortestWord_ne_complete (free.apart ended) starves types consumed complete
  · intro fed stream ended ⟨word, given, start⟩
    exact matchFrom_complete (free.apart ended) fed given start

private def starving : List Slot :=
  [⟨TokenType.ofIndex 0, .zeroOrMore⟩, ⟨TokenType.ofIndex 1, .zeroOrMore⟩,
    ⟨TokenType.ofIndex 0, .oneOrMore⟩]

theorem matchSlots_exact_starving :
    EndFree starving ∧ ∃ stream : TokenStream, stream.Ended ∧
      (∃ word, Word starving word ∧ word <+: stream.types) ∧
      ∀ consumed, matchSlots starving stream ≠ .complete consumed := by
  have free : EndFree starving := by decide
  have starves : Starves (repetitions starving) :=
    Or.inl ⟨rfl, [(TokenType.ofIndex 1, .zeroOrMore)], .oneOrMore, [], rfl, by decide, rfl⟩
  refine ⟨free, ?_⟩
  apply Classical.byContradiction
  intro unfailing
  apply (matchSlots_exact starving free).2.mp ?_ starves
  intro stream ended given
  apply Classical.byContradiction
  intro unmatched
  exact unfailing ⟨stream, ended, given, fun consumed found => unmatched ⟨consumed, found⟩⟩

end Decision

end LiteralGrammar
