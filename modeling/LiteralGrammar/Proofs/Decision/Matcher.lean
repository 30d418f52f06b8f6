/-
Where a match by single tests comes to an end.

No test changes what the match comes to, so a match that ends has the result of
matching its slots, and one that comes to a loop on the end of the stream, at
that end, never ends.  Anything else leaves less to do with every test: a slot
is left, or a token of the body.  Where no slot asks for the end of the stream
the index stays within the stream, for only its last token could carry it out.
-/

import LiteralGrammar.Decision.Matcher
import LiteralGrammar.Proofs.Decision.Mismatch

namespace LiteralGrammar

/-! ### One test of a slot -/

namespace Decision

/-- A loop that has begun needs no match any more. -/
theorem matchFrom_of_loops {last : Token} {slot : Slot} {later : List Slot} {index : Nat}
    {rest : List Token} (loops : slot.repetition.loops = true)
    (begun : slot.repetition.isOptional = true ∨ (rest.head?.getD last).type = slot.type) :
    matchFrom last (slot :: later) index rest =
      matchFrom last (⟨slot.type, .zeroOrMore⟩ :: later) index rest := by
  obtain ⟨type, repetition⟩ := slot
  cases repetition with
  | once => cases loops
  | zeroOrMore => rfl
  | oneOrMore =>
      have found := begun.resolve_left Bool.false_ne_true
      rw [matchFrom, matchFrom]
      simp only [Repetition.loops, Repetition.isOptional, found]
      simp

theorem matchFrom_of_single {last : Token} {slot : Slot} {later : List Slot} {index : Nat}
    {rest : List Token} (single : ¬slot.repetition.loops = true)
    (found : (rest.head?.getD last).type = slot.type) :
    matchFrom last (slot :: later) index rest =
      matchFrom last later (index + 1) (rest.drop 1) := by
  rw [matchFrom]
  simp [single, found]

theorem matchFrom_loop_takes {last : Token} {type : TokenType} {later : List Slot}
    {index : Nat} {rest : List Token} (found : (rest.head?.getD last).type = type) :
    matchFrom last (⟨type, .zeroOrMore⟩ :: later) index rest =
      matchFrom last (⟨type, .zeroOrMore⟩ :: later) (index + 1) (rest.drop 1) := by
  rw [matchFrom, matchFrom]
  cases rest with
  | nil => simp_all [Repetition.loops, Repetition.isOptional]
  | cons token tail =>
      simp_all [Repetition.loops, Repetition.isOptional, Nat.add_assoc, Nat.add_comm 1]

/-- Behind the body a loop on the type of the last token never stops. -/
theorem matchFrom_endless {last : Token} {type : TokenType} {repetition : Repetition}
    {later : List Slot} {index : Nat} (loops : repetition.loops = true)
    (found : last.type = type) :
    matchFrom last (⟨type, repetition⟩ :: later) index [] = .endless := by
  rw [matchFrom]
  simp [loops, found]

theorem matchFrom_loop_leaves {last : Token} {type : TokenType} {later : List Slot}
    {index : Nat} {rest : List Token} (different : (rest.head?.getD last).type ≠ type) :
    matchFrom last (⟨type, .zeroOrMore⟩ :: later) index rest =
      matchFrom last later index rest := by
  rw [matchFrom]
  cases rest <;> simp_all [Repetition.loops, Repetition.isOptional]

end Decision

namespace Matcher

/-! ### Reading -/

theorem readAt?_tokens (stream : TokenStream) (index : Nat) :
    readAt? stream.tokens index = some ((stream.body.drop index).head?.getD stream.last) := by
  have length : stream.tokens.length - 1 = stream.body.length := by
    simp [TokenStream.tokens]
  rw [readAt?, length, stream.getElem?_tokens (Nat.min_le_right _ _), List.head?_drop]
  rcases Nat.le_total index stream.body.length with within | beyond
  · rw [Nat.min_eq_left within]
  · rw [Nat.min_eq_right beyond, List.getElem?_eq_none beyond,
      List.getElem?_eq_none (Nat.le_refl _)]

/-- A token that is not the last one is read at its own index. -/
theorem readAt?_of_lt {tokens : List Token} {index : Nat} (within : index < tokens.length) :
    readAt? tokens index = tokens[index]? := by
  rw [readAt?, Nat.min_eq_left (Nat.le_sub_one_of_lt within)]

/-! ### What a match comes to -/

/-- What a match comes to from some state on. -/
def outcome (stream : TokenStream) : Matcher → Option MatchResult
  | ⟨.before slots, index⟩ =>
      some (Decision.matchFrom stream.last slots index (stream.body.drop index))
  | ⟨.within slot later, index⟩ =>
      let rest := stream.body.drop index
      if slot.repetition.loops then
        some (Decision.matchFrom stream.last (⟨slot.type, .zeroOrMore⟩ :: later) index rest)
      else if (rest.head?.getD stream.last).type = slot.type then
        some (Decision.matchFrom stream.last later (index + 1) (rest.drop 1))
      else some (Decision.matchFrom stream.last later index rest)
  | ⟨.completed, index⟩ => some (.complete index)
  | ⟨.failed found expected, index⟩ => some (.mismatch index found expected)
  | ⟨.missed, _⟩ => none

/-- One test of a slot whose turn has come. -/
theorem outcome_advance_before (stream : TokenStream) (slot : Slot) (later : List Slot)
    (index : Nat) :
    outcome stream (advance stream.tokens ⟨.before (slot :: later), index⟩) =
      outcome stream ⟨.before (slot :: later), index⟩ := by
  simp only [advance, readAt?_tokens]
  by_cases optional : slot.repetition.isOptional = true
  · have loops : slot.repetition.loops = true := by
      rw [Repetition.eq_zeroOrMore_of_isOptional optional]
      rfl
    rw [if_pos optional]
    simp only [outcome, if_pos loops]
    rw [Decision.matchFrom_of_loops loops (Or.inl optional)]
  · rw [if_neg optional]
    by_cases found : ((stream.body.drop index).head?.getD stream.last).type = slot.type
    · rw [if_pos found]
      by_cases loops : slot.repetition.loops = true
      · simp only [outcome, if_pos loops]
        rw [Decision.matchFrom_of_loops loops (Or.inr found)]
      · simp only [outcome, if_neg loops, if_pos found]
        rw [Decision.matchFrom_of_single loops found]
    · rw [if_neg found]
      simp only [outcome]
      rw [Decision.matchFrom_of_refused (Bool.eq_false_iff.mpr optional) found]

/-- One test within a slot. -/
theorem outcome_advance_within (stream : TokenStream) (slot : Slot) (later : List Slot)
    (index : Nat) :
    outcome stream (advance stream.tokens ⟨.within slot later, index⟩) =
      outcome stream ⟨.within slot later, index⟩ := by
  simp only [advance, readAt?_tokens]
  by_cases found : ((stream.body.drop index).head?.getD stream.last).type = slot.type
  · rw [if_pos found]
    by_cases loops : slot.repetition.loops = true
    · simp only [outcome, if_pos loops]
      rw [Decision.matchFrom_loop_takes found, List.drop_drop]
    · simp only [outcome, if_neg loops, if_pos found]
      rw [List.drop_drop]
  · rw [if_neg found]
    by_cases loops : slot.repetition.loops = true
    · simp only [outcome, if_pos loops]
      rw [Decision.matchFrom_loop_leaves found]
    · simp only [outcome, if_neg loops, if_neg found]

theorem outcome_advance (stream : TokenStream) (matcher : Matcher) :
    outcome stream (advance stream.tokens matcher) = outcome stream matcher := by
  obtain ⟨phase, index⟩ := matcher
  cases phase with
  | before slots =>
      cases slots with
      | nil => rfl
      | cons slot later => exact outcome_advance_before stream slot later index
  | within slot later => exact outcome_advance_within stream slot later index
  | completed => rfl
  | failed found expected => rfl
  | missed => rfl

theorem outcome_run (stream : TokenStream) (count : Nat) (matcher : Matcher) :
    outcome stream (run stream.tokens count matcher) = outcome stream matcher :=
  Function.Iterate.rec (fun later => outcome stream later = outcome stream matcher) rfl
    (fun later same => (outcome_advance stream later).trans same) count

theorem outcome_of_result (stream : TokenStream) {matcher : Matcher} {result : MatchResult}
    (ended : matcher.result? = some result) :
    outcome stream matcher = some result ∧ result ≠ .endless := by
  obtain ⟨phase, index⟩ := matcher
  cases phase with
  | before | within | missed => cases ended
  | completed | failed =>
      cases ended
      exact ⟨rfl, nofun⟩

theorem outcome_of_missed {stream : TokenStream} {matcher : Matcher}
    (missed : matcher.phase = .missed) : outcome stream matcher = none := by
  obtain ⟨phase, index⟩ := matcher
  cases missed
  rfl

theorem outcome_start (stream : TokenStream) (slots : List Slot) :
    outcome stream (start slots) = some (Decision.matchSlots slots stream) := rfl

/-- No access to a token misses. -/
theorem run_start_ne_missed (stream : TokenStream) (slots : List Slot) (count : Nat) :
    (run stream.tokens count (start slots)).phase ≠ .missed := by
  intro missed
  have same := outcome_run stream count (start slots)
  rw [outcome_start, outcome_of_missed missed] at same
  cases same

/-- A match that ends has the result of matching its slots. -/
theorem result_of_run {stream : TokenStream} {slots : List Slot} {count : Nat}
    {result : MatchResult}
    (ended : (run stream.tokens count (start slots)).result? = some result) :
    Decision.matchSlots slots stream = result ∧ result ≠ .endless := by
  obtain ⟨comesTo, ends⟩ := outcome_of_result stream ended
  rw [outcome_run, outcome_start] at comesTo
  exact ⟨Option.some.inj comesTo, ends⟩

/-! ### Loops on the end of the stream -/

/-- Whether a match has come to a slot that loops on the end of the input, at that end. -/
def Trapped (stream : TokenStream) : Matcher → Prop
  | ⟨.before (slot :: _), index⟩ | ⟨.within slot _, index⟩ =>
      slot.repetition.loops = true ∧ slot.type = TokenType.endOfInput ∧
        stream.body.length ≤ index
  | _ => False

theorem outcome_of_trapped {stream : TokenStream} (ended : stream.Ended) {matcher : Matcher}
    (trapped : Trapped stream matcher) : outcome stream matcher = some .endless := by
  obtain ⟨phase, index⟩ := matcher
  cases phase with
  | before slots =>
      cases slots with
      | nil => exact trapped.elim
      | cons slot later =>
          obtain ⟨loops, type, beyond⟩ := trapped
          have found : stream.last.type = slot.type := ended.last.trans type.symm
          rw [outcome, List.drop_eq_nil_of_le beyond, Decision.matchFrom_endless loops found]
  | within slot later =>
      obtain ⟨loops, type, beyond⟩ := trapped
      have found : stream.last.type = slot.type := ended.last.trans type.symm
      simp only [outcome, if_pos loops]
      rw [List.drop_eq_nil_of_le beyond, Decision.matchFrom_endless rfl found]
  | completed | failed | missed => exact trapped.elim

/-- Only the last token has the type of the end of the input. -/
theorem lt_length_of_read {stream : TokenStream} (ended : stream.Ended) {index : Nat}
    {type : TokenType} (other : type ≠ TokenType.endOfInput)
    (found : ((stream.body.drop index).head?.getD stream.last).type = type) :
    index < stream.body.length := by
  apply Nat.lt_of_not_le
  intro beyond
  rw [List.drop_eq_nil_of_le beyond] at found
  exact other (found.symm.trans ended.last)

/-! ### How much there is left to do -/

/-- Counts two tests for each slot and one for each token of the body. -/
def work (stream : TokenStream) : Matcher → Nat
  | ⟨.before slots, index⟩ => 2 * slots.length + (stream.body.length - index) + 1
  | ⟨.within _ later, index⟩ => 2 * later.length + (stream.body.length - index) + 2
  | _ => 0

theorem work_advance {stream : TokenStream} (ended : stream.Ended) {matcher : Matcher}
    (running : work stream matcher ≠ 0) (free : ¬Trapped stream matcher) :
    work stream (advance stream.tokens matcher) < work stream matcher := by
  obtain ⟨phase, index⟩ := matcher
  cases phase with
  | before slots =>
      cases slots with
      | nil => simp [advance, work]
      | cons slot later =>
          simp only [advance, readAt?_tokens]
          split
          · simp only [work, List.length_cons]
            omega
          · split <;> simp only [work, List.length_cons] <;> omega
  | within slot later =>
      simp only [advance, readAt?_tokens]
      split
      · rename_i found
        split
        · rename_i loops
          have inside : index < stream.body.length := by
            by_cases type : slot.type = TokenType.endOfInput
            · exact Nat.lt_of_not_le (fun beyond => free ⟨loops, type, beyond⟩)
            · exact lt_length_of_read ended type found
          simp only [work]
          omega
        · simp only [work]
          omega
      · simp only [work]
        omega
  | completed | failed | missed => exact absurd rfl running

/-- The induction is on the work that is left. -/
theorem spent_or_trapped {stream : TokenStream} (ended : stream.Ended) (matcher : Matcher) :
    ∃ count ≤ work stream matcher,
      work stream (run stream.tokens count matcher) = 0 ∨
        Trapped stream (run stream.tokens count matcher) := by
  induction amount : work stream matcher using Nat.strong_induction_on generalizing matcher with
  | _ amount ih =>
      by_cases spent : work stream matcher = 0
      · exact ⟨0, Nat.zero_le _, Or.inl spent⟩
      · by_cases trapped : Trapped stream matcher
        · exact ⟨0, Nat.zero_le _, Or.inr trapped⟩
        · have less := work_advance ended spent trapped
          rw [amount] at less
          obtain ⟨count, within, found⟩ := ih _ less _ rfl
          exact ⟨count + 1, by omega, found⟩

theorem result_of_spent {stream : TokenStream} {matcher : Matcher}
    (spent : work stream matcher = 0) (kept : matcher.phase ≠ .missed) :
    ∃ result, matcher.result? = some result := by
  obtain ⟨phase, index⟩ := matcher
  cases phase with
  | before | within => cases spent
  | completed | failed => exact ⟨_, rfl⟩
  | missed => exact absurd rfl kept

/-- A match ends unless it comes to a loop on the end of the input at that end. -/
theorem ends_iff {stream : TokenStream} (ended : stream.Ended) (slots : List Slot) :
    (∃ count result, (run stream.tokens count (start slots)).result? = some result) ↔
      ¬∃ count, Trapped stream (run stream.tokens count (start slots)) := by
  constructor
  · intro ⟨count, result, found⟩ ⟨other, trapped⟩
    obtain ⟨comesTo, ends⟩ := result_of_run found
    have endless := outcome_of_trapped ended trapped
    rw [outcome_run, outcome_start, comesTo] at endless
    exact ends (Option.some.inj endless)
  · intro free
    obtain ⟨count, _, spent | trapped⟩ := spent_or_trapped ended (start slots)
    · exact ⟨count, result_of_spent spent (run_start_ne_missed stream slots count)⟩
    · exact absurd ⟨count, trapped⟩ free

/-! ### Slots that do not ask for the end -/

/-- The slots that a match may still look at. -/
def ahead : Phase → List Slot
  | .before slots => slots
  | .within slot later => slot :: later
  | _ => []

/-- The index has not passed the last token, and nothing ahead asks for the end of the input. -/
structure Inside (stream : TokenStream) (matcher : Matcher) : Prop where
  free : Decision.EndFree (ahead matcher.phase)
  within : matcher.index ≤ stream.body.length

theorem Inside.advance {stream : TokenStream} (ended : stream.Ended) {matcher : Matcher}
    (inside : Inside stream matcher) : Inside stream (advance stream.tokens matcher) := by
  obtain ⟨phase, index⟩ := matcher
  obtain ⟨free, within⟩ := inside
  cases phase with
  | before slots =>
      cases slots with
      | nil => exact ⟨free, within⟩
      | cons slot later =>
          simp only [Matcher.advance, readAt?_tokens]
          split
          · exact ⟨free, within⟩
          · split
            · exact ⟨free, within⟩
            · exact ⟨nofun, within⟩
  | within slot later =>
      obtain ⟨other, freeLater⟩ := List.forall_mem_cons.mp free
      simp only [Matcher.advance, readAt?_tokens]
      split
      · rename_i found
        have next : index + 1 ≤ stream.body.length := lt_length_of_read ended other found
        split
        · exact ⟨free, next⟩
        · exact ⟨freeLater, next⟩
      · exact ⟨freeLater, within⟩
  | completed | failed | missed => exact ⟨free, within⟩

theorem inside_run {stream : TokenStream} (ended : stream.Ended) {slots : List Slot}
    (free : Decision.EndFree slots) (count : Nat) :
    Inside stream (run stream.tokens count (start slots)) := by
  have begins : Inside stream (start slots) := ⟨free, Nat.zero_le _⟩
  exact Function.Iterate.rec (Inside stream) begins (fun _ inside => inside.advance ended) count

theorem Inside.not_trapped {stream : TokenStream} {matcher : Matcher}
    (inside : Inside stream matcher) : ¬Trapped stream matcher := by
  obtain ⟨phase, index⟩ := matcher
  intro trapped
  cases phase with
  | before slots =>
      cases slots with
      | nil => exact trapped
      | cons slot later => exact inside.free slot List.mem_cons_self trapped.2.1
  | within slot later => exact inside.free slot List.mem_cons_self trapped.2.1
  | completed | failed | missed => exact trapped

/-- Where no slot asks for the end of the input, matching ends after so many tests at most. -/
theorem ends_of_endFree {stream : TokenStream} (ended : stream.Ended) {slots : List Slot}
    (free : Decision.EndFree slots) :
    ∃ count ≤ 2 * slots.length + stream.body.length + 1,
      (run stream.tokens count (start slots)).result? =
        some (Decision.matchSlots slots stream) := by
  obtain ⟨count, within, spent | trapped⟩ := spent_or_trapped ended (start slots)
  · obtain ⟨result, found⟩ := result_of_spent spent (run_start_ne_missed stream slots count)
    exact ⟨count, within, by rw [(result_of_run found).1, found]⟩
  · exact absurd trapped (inside_run ended free count).not_trapped

end Matcher

end LiteralGrammar
