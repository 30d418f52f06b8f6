/-
Prediction by work lists predicts what it should.

A work list that has been gone through holds exactly what its configurations
reach without a token: what has been passed has had its successor added, and
nothing else ever is.  Configurations keep their alternatives, so that no access
to an alternative misses.  The lists differ from those that prediction is
defined by in their order only, and no answer depends on the order.
-/

import LiteralGrammar.Proofs.Decision.Prediction
import Mathlib.Data.List.Basic

namespace LiteralGrammar.Decision

/-- Configurations of alternatives that exist. -/
def InRange (decision : Decision) (configs : List Config) : Prop :=
  ∀ config ∈ configs, config.alternative < decision.alternatives.length

/-- Lists of the same configurations, in any order. -/
def Alike (left right : List Config) : Prop :=
  ∀ config, config ∈ left ↔ config ∈ right

theorem listed_slots {decision : Decision} {alternative : Nat}
    (within : alternative < decision.alternatives.length) :
    decision.alternatives[alternative]? = some (decision.slots alternative) := by
  unfold slots
  rw [List.getElem?_eq_getElem within, Option.getD_some]

/-! ### Single configurations -/

theorem mem_addNew {configs : List Config} {added : Option Config} {config : Config} :
    config ∈ addNew configs added ↔ config ∈ configs ∨ added = some config := by
  cases added with
  | none => simp [addNew]
  | some new =>
      simp only [addNew, Option.some.injEq]
      split
      · rename_i present
        constructor
        · exact Or.inl
        · rintro (member | same)
          · exact member
          · rwa [← same]
      · rw [List.mem_append, List.mem_singleton, eq_comm (a := config)]

theorem take_addNew {configs : List Config} (added : Option Config) {count : Nat}
    (within : count ≤ configs.length) :
    (addNew configs added).take count = configs.take count := by
  cases added with
  | none => rfl
  | some new =>
      simp only [addNew]
      split
      · rfl
      · exact List.take_append_of_le_length within

theorem leaveIn?_slots (decision : Decision) (config : Config) :
    leaveIn? (decision.slots config.alternative) config = decision.leave? config := by
  unfold leaveIn? leave? ahead
  rw [← List.head?_drop]
  cases (decision.slots config.alternative).drop config.position <;> rfl

theorem moveIn?_slots (decision : Decision) (type : TokenType) (config : Config) :
    moveIn? (decision.slots config.alternative) type config = decision.move? type config := by
  unfold moveIn? move? ahead
  rw [← List.head?_drop]
  cases (decision.slots config.alternative).drop config.position <;> rfl

theorem alternative_of_leave {decision : Decision} {config next : Config}
    (left : decision.leave? config = some next) : next.alternative = config.alternative := by
  obtain ⟨_, _, _, same⟩ := leave?_eq_some_iff.mp left
  rw [same]

theorem alternative_of_move {decision : Decision} {type : TokenType} {config next : Config}
    (moved : decision.move? type config = some next) :
    next.alternative = config.alternative := by
  obtain ⟨slot, _, _, same⟩ := move?_eq_some_iff.mp moved
  rw [same]
  split <;> rfl

theorem alternative_of_mem_closure {decision : Decision} {config other : Config}
    (member : other ∈ decision.closure config) : other.alternative = config.alternative :=
  closure_induction (fun _ _ same left => (alternative_of_leave left).trans same) config other
    rfl member

theorem InRange.addNew {decision : Decision} {configs : List Config} {config : Config}
    (inRange : decision.InRange configs) (present : config ∈ configs) {added : Option Config}
    (kept : ∀ next, added = some next → next.alternative = config.alternative) :
    decision.InRange (addNew configs added) := by
  intro other member
  rcases mem_addNew.mp member with old | new
  · exact inRange other old
  · rw [kept other new]
    exact inRange config present

/-! ### Going through a work list -/

/-- Whatever leaving leads to from a configuration that has been passed is listed. -/
def Passed (decision : Decision) (configs : List Config) (index : Nat) : Prop :=
  ∀ config ∈ configs.take index, ∀ next, decision.leave? config = some next → next ∈ configs

/-- One round: the configuration at the index is passed, with what it adds. -/
theorem Passed.succ {decision : Decision} {configs : List Config} {index : Nat}
    {config : Config} (passed : decision.Passed configs index)
    (present : configs[index]? = some config) :
    decision.Passed (addNew configs (decision.leave? config)) (index + 1) := by
  intro other member next left
  have inside := (List.getElem?_eq_some_iff.mp present).1
  rw [take_addNew _ inside, List.take_add_one, present, Option.toList_some, List.mem_append,
    List.mem_singleton] at member
  rw [mem_addNew]
  rcases member with before | here
  · exact Or.inl (passed other before next left)
  · rw [here] at left
    exact Or.inr left

/-- A work list that has been gone through is closed under leaving. -/
theorem Passed.mem_iff {decision : Decision} {configs : List Config} {index : Nat}
    (passed : decision.Passed configs index) (ended : configs.length ≤ index)
    (config : Config) :
    config ∈ configs ↔ ∃ first ∈ configs, config ∈ decision.closure first := by
  unfold Passed at passed
  rw [List.take_of_length_le ended] at passed
  constructor
  · intro member
    exact ⟨config, member, mem_closure_self decision config⟩
  · intro ⟨first, member, reached⟩
    have preserved := fun config next listed left => passed config listed next left
    exact closure_induction preserved first config member reached

/-- What a round adds was in reach before it. -/
theorem reached_addNew_iff {decision : Decision} {configs : List Config} {config : Config}
    (present : config ∈ configs) (other : Config) :
    (∃ first ∈ addNew configs (decision.leave? config), other ∈ decision.closure first) ↔
      ∃ first ∈ configs, other ∈ decision.closure first := by
  constructor
  · intro ⟨first, member, reached⟩
    rcases mem_addNew.mp member with old | new
    · exact ⟨first, old, reached⟩
    · exact ⟨config, present, (mem_closure_iff decision config other).mpr
        (Or.inr ⟨first, new, reached⟩)⟩
  · intro ⟨first, member, reached⟩
    exact ⟨first, mem_addNew.mpr (Or.inl member), reached⟩

/-- One round, whatever it meets. -/
theorem closeFrom_eq (decision : Decision) (configs : List Config) (index : Nat) :
    decision.closeFrom configs index =
      match configs[index]? with
      | none => some configs
      | some config =>
          match decision.alternatives[config.alternative]? with
          | none => none
          | some slots =>
              decision.closeFrom (addNew configs (leaveIn? slots config)) (index + 1) := by
  rw [closeFrom]
  split
  · rename_i ended
    rw [ended]
  · rename_i config present
    simp only [present]
    split
    · rename_i missing
      rw [missing]
    · rename_i slots listed
      simp only [listed]

theorem closeFrom_ended {decision : Decision} {configs : List Config} {index : Nat}
    (ended : configs[index]? = none) : decision.closeFrom configs index = some configs := by
  rw [closeFrom_eq, ended]

theorem closeFrom_missed {decision : Decision} {configs : List Config} {index : Nat}
    {config : Config} (present : configs[index]? = some config)
    (missing : decision.alternatives[config.alternative]? = none) :
    decision.closeFrom configs index = none := by
  rw [closeFrom_eq, present]
  simp only [missing]

theorem closeFrom_listed {decision : Decision} {configs : List Config} {index : Nat}
    {config : Config} {slots : List Slot} (present : configs[index]? = some config)
    (listed : decision.alternatives[config.alternative]? = some slots) :
    decision.closeFrom configs index =
      decision.closeFrom (addNew configs (leaveIn? slots config)) (index + 1) := by
  rw [closeFrom_eq, present]
  simp only [listed]

/-- The induction is on the rounds that are left. -/
theorem closeFrom_exact (decision : Decision) (configs : List Config) (index : Nat)
    (inRange : decision.InRange configs) (passed : decision.Passed configs index) :
    ∃ closed, decision.closeFrom configs index = some closed ∧
      ∀ config, config ∈ closed ↔ ∃ first ∈ configs, config ∈ decision.closure first := by
  induction configs, index using closeFrom.induct decision with
  | case1 configs index ended =>
      exact ⟨configs, closeFrom_ended ended, passed.mem_iff (List.getElem?_eq_none_iff.mp ended)⟩
  | case2 configs index config present missing =>
      rw [listed_slots (inRange config (List.mem_of_getElem? present))] at missing
      cases missing
  | case3 configs index config present slots listed ih =>
      have member := List.mem_of_getElem? present
      have leaves : leaveIn? slots config = decision.leave? config := by
        rw [← slots_of_listed listed, leaveIn?_slots]
      rw [leaves] at ih
      obtain ⟨closed, found, exact⟩ :=
        ih (inRange.addNew member (fun _ left => alternative_of_leave left))
          (passed.succ present)
      refine ⟨closed, by rw [closeFrom_listed present listed, leaves, found], ?_⟩
      intro other
      rw [exact, reached_addNew_iff member]

theorem close?_exact {decision : Decision} {configs : List Config}
    (inRange : decision.InRange configs) :
    ∃ closed, decision.close? configs = some closed ∧
      ∀ config, config ∈ closed ↔ ∃ first ∈ configs, config ∈ decision.closure first :=
  closeFrom_exact decision configs 0 inRange (fun _ member => by cases member)

theorem start?_exact (decision : Decision) :
    ∃ configs, decision.start? = some configs ∧ Alike configs decision.start := by
  have inRange : decision.InRange ((List.range decision.alternatives.length).map
      (fun alternative => ⟨alternative, 0, false⟩)) := by
    simp [InRange]
  obtain ⟨closed, found, exact⟩ := close?_exact inRange
  refine ⟨closed, found, ?_⟩
  intro config
  rw [exact, mem_start_iff]
  simp

/-! ### One more token -/

theorem moveEach?_exact {decision : Decision} {configs : List Config} (type : TokenType)
    (inRange : decision.InRange configs) (moved : List Config) :
    ∃ all, decision.moveEach? type moved configs = some all ∧
      ∀ config, config ∈ all ↔
        config ∈ moved ∨ ∃ old ∈ configs, decision.move? type old = some config := by
  induction configs generalizing moved with
  | nil => exact ⟨moved, rfl, by simp⟩
  | cons first rest ih =>
      obtain ⟨within, later⟩ := List.forall_mem_cons.mp inRange
      obtain ⟨all, found, exact⟩ := ih later (addNew moved (decision.move? type first))
      refine ⟨all, ?_, ?_⟩
      · rw [moveEach?, listed_slots within]
        change decision.moveEach? type (addNew moved (moveIn? _ type first)) rest = some all
        rw [moveIn?_slots, found]
      · intro config
        rw [exact, mem_addNew, or_assoc, List.exists_mem_cons_iff]

theorem step?_exact {decision : Decision} {configs others : List Config}
    (inRange : decision.InRange configs) (alike : Alike configs others) (type : TokenType) :
    ∃ next, decision.step? configs type = some next ∧
      Alike next (decision.step others type) := by
  obtain ⟨moved, stepped, exactMoved⟩ := moveEach?_exact type inRange []
  have movedInRange : decision.InRange moved := by
    intro config member
    obtain ⟨old, present, moves⟩ := ((exactMoved config).mp member).resolve_left List.not_mem_nil
    rw [alternative_of_move moves]
    exact inRange old present
  obtain ⟨next, closed, exact⟩ := close?_exact movedInRange
  refine ⟨next, by rw [step?, stepped, Option.bind_some, closed], ?_⟩
  intro config
  rw [exact, mem_step_iff]
  constructor
  · intro ⟨first, member, reached⟩
    obtain ⟨old, present, moves⟩ := ((exactMoved first).mp member).resolve_left List.not_mem_nil
    exact ⟨old, (alike old).mp present, first, moves, reached⟩
  · intro ⟨old, present, first, moves, reached⟩
    exact ⟨first, (exactMoved first).mpr (Or.inr ⟨old, (alike old).mpr present, moves⟩), reached⟩

theorem complete?_eq {decision : Decision} {configs : List Config}
    (inRange : decision.InRange configs) :
    decision.complete? configs = some (configs.filter decision.isComplete) := by
  induction configs with
  | nil => rfl
  | cons first rest ih =>
      obtain ⟨within, later⟩ := List.forall_mem_cons.mp inRange
      rw [complete?, listed_slots within]
      simp only [ih later, Option.map_some, List.filter_cons, isComplete, decide_eq_true_eq]

/-! ### Answers do not depend on the order -/

theorem Alike.sole?_eq {configs others : List Config} (alike : Alike configs others) :
    sole? configs = sole? others := by
  apply Option.ext
  intro alternative
  have empty : configs = [] ↔ others = [] := by
    simp only [List.eq_nil_iff_forall_not_mem, alike _]
  rw [sole?_eq_some_iff, sole?_eq_some_iff, ne_eq, empty]
  simp only [alike _]

theorem Alike.lowest?_eq {configs others : List Config} (alike : Alike configs others) :
    lowest? configs = lowest? others := by
  apply Option.ext
  intro alternative
  rw [lowest?_eq_some_iff, lowest?_eq_some_iff]
  simp only [alike _]

theorem Alike.isEmpty_eq {configs others : List Config} (alike : Alike configs others) :
    configs.isEmpty = others.isEmpty := by
  rw [Bool.eq_iff_iff, List.isEmpty_iff, List.isEmpty_iff]
  simp only [List.eq_nil_iff_forall_not_mem, alike _]

theorem Alike.filter {configs others : List Config} (alike : Alike configs others)
    (keep : Config → Bool) : Alike (configs.filter keep) (others.filter keep) := by
  intro config
  rw [List.mem_filter, List.mem_filter, alike]

/-! ### Prediction -/

theorem InRange.step {decision : Decision} {configs : List Config}
    (inRange : decision.InRange configs) (type : TokenType) :
    decision.InRange (decision.step configs type) := by
  intro config member
  obtain ⟨old, present, moved, moves, reached⟩ := (mem_step_iff _ _ _ _).mp member
  rw [alternative_of_mem_closure reached, alternative_of_move moves]
  exact inRange old present

theorem inRange_start (decision : Decision) : decision.InRange decision.start := by
  intro config member
  obtain ⟨alternative, within, reached⟩ := (mem_start_iff _ _).mp member
  rw [alternative_of_mem_closure reached]
  exact within

theorem InRange.of_alike {decision : Decision} {configs others : List Config}
    (inRange : decision.InRange others) (alike : Alike configs others) :
    decision.InRange configs :=
  fun config member => inRange config ((alike config).mp member)

/-- The induction is on the tokens ahead; after each, the lists hold the same configurations. -/
theorem predictFrom?_eq {decision : Decision} {configs others : List Config}
    (inRange : decision.InRange others) (alike : Alike configs others) (last : Token)
    (tokens : List Token) :
    decision.predictFrom? configs last tokens =
      some (decision.predictFrom others last tokens) := by
  induction tokens generalizing configs others last with
  | nil =>
      rw [predictFrom?, predictFrom, alike.lowest?_eq]
      cases lowest? others <;> rfl
  | cons token rest ih =>
      have inRangeHere := inRange.of_alike alike
      obtain ⟨next, stepped, nextAlike⟩ := step?_exact inRangeHere alike token.type
      rw [predictFrom?, predictFrom, alike.sole?_eq]
      cases sole? others with
      | some alternative => rfl
      | none =>
          simp only [stepped, nextAlike.isEmpty_eq, complete?_eq inRangeHere,
            (alike.filter decision.isComplete).lowest?_eq, Option.bind_eq_bind,
            Option.bind_some]
          split
          · cases lowest? (others.filter decision.isComplete) <;> rfl
          · exact ih (inRange.step token.type) nextAlike token

/-- Prediction by work lists comes to an end without an access that misses, and agrees with
prediction. -/
theorem predict?_eq (decision : Decision) (tokens : List Token) :
    decision.predict? tokens = some (decision.predict tokens) := by
  obtain ⟨configs, found, alike⟩ := start?_exact decision
  rw [predict?, found]
  exact predictFrom?_eq (inRange_start decision) alike _ tokens

end LiteralGrammar.Decision
