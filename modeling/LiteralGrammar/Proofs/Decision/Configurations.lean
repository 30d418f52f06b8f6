/-
Configurations against places.

After some types the configurations of a decision are exactly the places that
these types can lead to, in every alternative at once.  One direction follows
from what a single move and a single leave preserve; the other walks along the
slots of an alternative.
-/

import LiteralGrammar.Decision.Worklist
import LiteralGrammar.Proofs.Decision.Places
import Mathlib.Data.List.Induction

namespace LiteralGrammar.Decision

/-! ### Leaving a slot without a token -/

/-- Where one configuration gets by leaving the slot ahead. -/
def leave? (decision : Decision) (config : Config) : Option Config :=
  match decision.ahead config with
  | [] => none
  | slot :: _ =>
      if slot.canLeave config.looping then
        some { config with position := config.position + 1, looping := false }
      else none

theorem ahead_cons_iff {decision : Decision} {config : Config} {slot : Slot} :
    (∃ rest, decision.ahead config = slot :: rest) ↔
      (decision.slots config.alternative)[config.position]? = some slot := by
  unfold ahead
  rw [← List.head?_drop, List.head?_eq_some_iff]

theorem leave?_eq_some_iff {decision : Decision} {config next : Config} :
    decision.leave? config = some next ↔
      ∃ slot, (decision.slots config.alternative)[config.position]? = some slot ∧
        slot.canLeave config.looping = true ∧
        next = ⟨config.alternative, config.position + 1, false⟩ := by
  unfold leave?
  constructor
  · intro left
    split at left
    · cases left
    · rename_i slot rest found
      split at left
      · rename_i free
        cases left
        exact ⟨slot, ahead_cons_iff.mp ⟨rest, found⟩, free, rfl⟩
      · cases left
  · intro ⟨slot, present, free, same⟩
    obtain ⟨rest, found⟩ := ahead_cons_iff.mpr present
    rw [found, same]
    exact if_pos free

theorem move?_eq_some_iff {decision : Decision} {type : TokenType} {config next : Config} :
    decision.move? type config = some next ↔
      ∃ slot, (decision.slots config.alternative)[config.position]? = some slot ∧
        slot.type = type ∧
        next = if slot.repetition.loops then ⟨config.alternative, config.position, true⟩
          else ⟨config.alternative, config.position + 1, false⟩ := by
  unfold move?
  constructor
  · intro moved
    split at moved
    · cases moved
    · rename_i slot rest found
      split at moved
      · rename_i sameType
        refine ⟨slot, ahead_cons_iff.mp ⟨rest, found⟩, sameType, ?_⟩
        split at moved
        · rename_i loops
          rw [if_pos loops]
          exact (Option.some.inj moved).symm
        · rename_i single
          rw [if_neg single]
          exact (Option.some.inj moved).symm
      · cases moved
  · intro ⟨slot, present, sameType, same⟩
    obtain ⟨rest, found⟩ := ahead_cons_iff.mpr present
    rw [found, same]
    by_cases loops : slot.repetition.loops = true
    · simp only [if_pos sameType, if_pos loops]
    · simp only [if_pos sameType, if_neg loops]

/-- The closure holds the configuration itself and, if it can be left, the closure of what comes
next. -/
theorem mem_closure_iff (decision : Decision) (config other : Config) :
    other ∈ decision.closure config ↔
      other = config ∨ ∃ next, decision.leave? config = some next ∧
        other ∈ decision.closure next := by
  have aheadNext : decision.ahead ⟨config.alternative, config.position + 1, false⟩ =
      (decision.ahead config).tail := by
    unfold ahead
    rw [List.tail_drop]
  unfold closure
  cases found : decision.ahead config with
  | nil =>
      have stays : decision.leave? config = none := by
        unfold leave?
        rw [found]
      rw [stays]
      simp [reach]
  | cons slot rest =>
      rw [found, List.tail_cons] at aheadNext
      by_cases free : slot.canLeave config.looping = true
      · have leaves : decision.leave? config =
            some ⟨config.alternative, config.position + 1, false⟩ := by
          unfold leave?
          rw [found]
          exact if_pos free
        rw [leaves, reach, if_pos free, List.mem_cons]
        simp only [Option.some.injEq, exists_eq_left', aheadNext]
      · have stays : decision.leave? config = none := by
          unfold leave?
          rw [found]
          exact if_neg free
        rw [stays, reach, if_neg free]
        simp

theorem mem_closure_self (decision : Decision) (config : Config) :
    config ∈ decision.closure config :=
  (mem_closure_iff decision config config).mpr (Or.inl rfl)

theorem remaining_leave {decision : Decision} {config next : Config}
    (left : decision.leave? config = some next) :
    decision.remaining next < decision.remaining config := by
  rcases leave?_eq_some_iff.mp left with ⟨slot, present, _, same⟩
  have within := (List.getElem?_eq_some_iff.mp present).1
  subst same
  change (decision.slots config.alternative).length - (config.position + 1) <
    (decision.slots config.alternative).length - config.position
  omega

/-- What leaving preserves holds in a whole closure. -/
theorem closure_induction {decision : Decision} {Holds : Config → Prop}
    (preserved : ∀ config next, Holds config → decision.leave? config = some next → Holds next)
    (config other : Config) (base : Holds config) (member : other ∈ decision.closure config) :
    Holds other := by
  rcases (mem_closure_iff decision config other).mp member with same | ⟨next, left, later⟩
  · rw [same]
    exact base
  · have shorter := remaining_leave left
    exact closure_induction preserved next other (preserved config next base left) later
termination_by decision.remaining config

/-- A closure is closed under leaving. -/
theorem mem_closure_of_leave (decision : Decision) (config other next : Config)
    (member : other ∈ decision.closure config) (left : decision.leave? other = some next) :
    next ∈ decision.closure config := by
  rcases (mem_closure_iff decision config other).mp member with same | ⟨middle, first, later⟩
  · rw [same] at left
    exact (mem_closure_iff decision config next).mpr
      (Or.inr ⟨next, left, mem_closure_self decision next⟩)
  · have shorter := remaining_leave first
    exact (mem_closure_iff decision config next).mpr
      (Or.inr ⟨middle, first, mem_closure_of_leave decision middle other next later left⟩)
termination_by decision.remaining config

/-! ### Single steps -/

theorem mem_start_iff (decision : Decision) (config : Config) :
    config ∈ decision.start ↔ ∃ alternative < decision.alternatives.length,
      config ∈ decision.closure ⟨alternative, 0, false⟩ := by
  unfold start
  rw [mem_distinct, List.mem_flatMap]
  simp only [List.mem_range]

theorem mem_step_iff (decision : Decision) (configs : List Config) (type : TokenType)
    (config : Config) :
    config ∈ decision.step configs type ↔
      ∃ old ∈ configs, ∃ moved, decision.move? type old = some moved ∧
        config ∈ decision.closure moved := by
  unfold step
  rw [mem_distinct, List.mem_flatMap]
  constructor
  · intro ⟨moved, found, member⟩
    rcases List.mem_filterMap.mp found with ⟨old, present, step⟩
    exact ⟨old, present, moved, step, member⟩
  · intro ⟨old, present, moved, step, member⟩
    exact ⟨moved, List.mem_filterMap.mpr ⟨old, present, step⟩, member⟩

theorem after_nil (decision : Decision) : decision.after [] = decision.start := rfl

theorem after_concat (decision : Decision) (types : List TokenType) (type : TokenType) :
    decision.after (types ++ [type]) = decision.step (decision.after types) type := by
  unfold after
  rw [List.foldl_append]
  rfl

/-- After any types the configurations are closed under leaving. -/
theorem mem_after_of_leave {decision : Decision} {types : List TokenType} {config next : Config}
    (member : config ∈ decision.after types) (left : decision.leave? config = some next) :
    next ∈ decision.after types := by
  induction types using List.reverseRecOn with
  | nil =>
      rw [after_nil, mem_start_iff] at member ⊢
      obtain ⟨alternative, within, inside⟩ := member
      exact ⟨alternative, within, mem_closure_of_leave decision _ config next inside left⟩
  | append_singleton types type _ =>
      rw [after_concat, mem_step_iff] at member ⊢
      obtain ⟨old, present, moved, step, inside⟩ := member
      exact ⟨old, present, moved, step, mem_closure_of_leave decision _ config next inside left⟩

theorem mem_after_of_move {decision : Decision} {types : List TokenType} {type : TokenType}
    {config next : Config} (member : config ∈ decision.after types)
    (moved : decision.move? type config = some next) :
    next ∈ decision.after (types ++ [type]) := by
  rw [after_concat, mem_step_iff]
  exact ⟨config, member, next, moved, mem_closure_self decision next⟩

/-! ### Configurations are places -/

/-- Whether some types can lead an alternative of the decision to a configuration. -/
def Occupies (decision : Decision) (types : List TokenType) (config : Config) : Prop :=
  config.alternative < decision.alternatives.length ∧
    Stands (decision.slots config.alternative) types config.position config.looping

theorem Occupies.leave {decision : Decision} {types : List TokenType} {config next : Config}
    (occupies : decision.Occupies types config) (left : decision.leave? config = some next) :
    decision.Occupies types next := by
  rcases leave?_eq_some_iff.mp left with ⟨slot, present, free, same⟩
  rw [same]
  exact ⟨occupies.1, occupies.2.leave present free⟩

theorem Occupies.closure {decision : Decision} {types : List TokenType} {config other : Config}
    (occupies : decision.Occupies types config) (member : other ∈ decision.closure config) :
    decision.Occupies types other :=
  closure_induction (fun _ _ holds left => Occupies.leave holds left) config other occupies member

theorem Stands.match_loop {slots : List Slot} {types : List TokenType} {position : Nat}
    {looping : Bool} {slot : Slot} (stands : Stands slots types position looping)
    (present : slots[position]? = some slot) (loops : slot.repetition.loops = true) :
    Stands slots (types ++ [slot.type]) position true := by
  cases looping with
  | false => exact ⟨slot, types, 0, present, loops, stands.2, rfl⟩
  | true =>
      obtain ⟨other, earlier, count, found, _, given, same⟩ := stands
      rw [present] at found
      cases found
      refine ⟨slot, earlier, count + 1, present, loops, given, ?_⟩
      rw [same, List.append_assoc, List.replicate_succ' (n := count + 1)]

theorem Stands.match_once {slots : List Slot} {types : List TokenType} {position : Nat}
    {looping : Bool} {slot : Slot} (stands : Stands slots types position looping)
    (present : slots[position]? = some slot) (single : ¬slot.repetition.loops = true) :
    Stands slots (types ++ [slot.type]) (position + 1) false := by
  cases looping with
  | false =>
      refine ⟨(List.getElem?_eq_some_iff.mp present).1, (word_take_succ_iff present _).mpr ?_⟩
      exact ⟨types, 1, stands.2, Repetition.allows_one _, rfl⟩
  | true =>
      obtain ⟨other, _, _, found, loops, _⟩ := stands
      rw [present] at found
      cases found
      exact absurd loops single

theorem Occupies.move {decision : Decision} {types : List TokenType} {type : TokenType}
    {config next : Config} (occupies : decision.Occupies types config)
    (moved : decision.move? type config = some next) :
    decision.Occupies (types ++ [type]) next := by
  rcases move?_eq_some_iff.mp moved with ⟨slot, present, sameType, same⟩
  subst sameType
  by_cases loops : slot.repetition.loops = true
  · rw [same, if_pos loops]
    exact ⟨occupies.1, occupies.2.match_loop present loops⟩
  · rw [same, if_neg loops]
    exact ⟨occupies.1, occupies.2.match_once present loops⟩

theorem occupies_of_mem_after {decision : Decision} {types : List TokenType} {config : Config}
    (member : config ∈ decision.after types) : decision.Occupies types config := by
  induction types using List.reverseRecOn generalizing config with
  | nil =>
      rw [after_nil, mem_start_iff] at member
      obtain ⟨alternative, within, inside⟩ := member
      exact Occupies.closure ⟨within, stands_start _⟩ inside
  | append_singleton types type ih =>
      rw [after_concat, mem_step_iff] at member
      obtain ⟨old, present, moved, step, inside⟩ := member
      exact ((ih present).move step).closure inside

/-- A slot that loops is reached by every number of its matches, given the place before it. -/
theorem mem_after_of_loop {decision : Decision} {alternative position : Nat} {slot : Slot}
    {earlier : List TokenType}
    (present : (decision.slots alternative)[position]? = some slot)
    (loops : slot.repetition.loops = true)
    (before : ⟨alternative, position, false⟩ ∈ decision.after earlier) (count : Nat) :
    ⟨alternative, position, true⟩ ∈
      decision.after (earlier ++ List.replicate (count + 1) slot.type) := by
  have again (looping : Bool) : decision.move? slot.type ⟨alternative, position, looping⟩ =
      some ⟨alternative, position, true⟩ :=
    move?_eq_some_iff.mpr ⟨slot, present, rfl, (if_pos loops).symm⟩
  induction count with
  | zero => exact mem_after_of_move before (again false)
  | succ count ih =>
      rw [List.replicate_succ', ← List.append_assoc]
      exact mem_after_of_move ih (again true)

/-- The induction is on the slots left behind: each is skipped, matched once, or looped on. -/
theorem mem_after_of_word {decision : Decision} {alternative position : Nat}
    {types : List TokenType} (within : alternative < decision.alternatives.length)
    (inside : position ≤ (decision.slots alternative).length)
    (word : Word ((decision.slots alternative).take position) types) :
    ⟨alternative, position, false⟩ ∈ decision.after types := by
  induction position generalizing types with
  | zero =>
      rw [List.take_zero, word_nil_iff] at word
      rw [word, after_nil, mem_start_iff]
      exact ⟨alternative, within, mem_closure_self decision _⟩
  | succ position ih =>
      obtain ⟨slot, present⟩ : ∃ slot, (decision.slots alternative)[position]? = some slot :=
        ⟨_, List.getElem?_eq_getElem inside⟩
      rcases (word_take_succ_iff present types).mp word with
        ⟨earlier, count, earlierWord, allowed, same⟩
      have before := ih (by omega) earlierWord
      rw [same]
      cases count with
      | zero =>
          have optional := (Repetition.allows_zero_iff _).mp allowed
          rw [List.replicate_zero, List.append_nil]
          exact mem_after_of_leave before
            (leave?_eq_some_iff.mpr ⟨slot, present, by simp [Slot.canLeave, optional], rfl⟩)
      | succ count =>
          by_cases loops : slot.repetition.loops = true
          · exact mem_after_of_leave (mem_after_of_loop present loops before count)
              (leave?_eq_some_iff.mpr ⟨slot, present, by simp [Slot.canLeave, loops], rfl⟩)
          · have single := Repetition.eq_one_of_allows allowed loops
            rw [single]
            exact mem_after_of_move before
              (move?_eq_some_iff.mpr ⟨slot, present, rfl, (if_neg loops).symm⟩)

theorem mem_after_iff (decision : Decision) (types : List TokenType) (config : Config) :
    config ∈ decision.after types ↔ decision.Occupies types config := by
  constructor
  · exact occupies_of_mem_after
  · intro ⟨within, stands⟩
    obtain ⟨alternative, position, looping⟩ := config
    cases looping with
    | false => exact mem_after_of_word within stands.1 stands.2
    | true =>
        obtain ⟨slot, earlier, count, present, loops, given, same⟩ := stands
        have inside := (List.getElem?_eq_some_iff.mp present).1
        rw [same]
        exact mem_after_of_loop present loops
          (mem_after_of_word within (Nat.le_of_lt inside) given) count

end LiteralGrammar.Decision
