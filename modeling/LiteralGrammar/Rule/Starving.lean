/-
Items that can be left without the match they need.

Where a loop takes all that it can, an item further on may find nothing left.
This depends only on the keys by which items are matched and on how often each
may match, so it is stated for any keys.
-/

import LiteralGrammar.Rule.Basic

namespace LiteralGrammar

section

variable {Key : Type}

/-- Whether the first item that must match, past those that may be skipped, has this key. -/
def Awaits (wanted : Key) (items : List (Key × Repetition)) : Prop :=
  ∃ skipped repetition later, items = skipped ++ (wanted, repetition) :: later ∧
    (∀ other ∈ skipped, other.2 = .zeroOrMore) ∧ repetition.isOptional = false

/-- Whether an item that loops is followed, past items that may be skipped, by one of the same
key that must match. -/
def Starves : List (Key × Repetition) → Prop
  | [] => False
  | item :: rest => (item.2.loops = true ∧ Awaits item.1 rest) ∨ Starves rest

theorem not_awaits_nil (wanted : Key) : ¬Awaits wanted [] := by
  intro ⟨skipped, repetition, later, same, _⟩
  cases skipped <;> cases same

theorem awaits_cons_of_optional {wanted : Key} {item : Key × Repetition}
    {rest : List (Key × Repetition)} (optional : item.2.isOptional = true) :
    Awaits wanted (item :: rest) ↔ Awaits wanted rest := by
  constructor
  · intro ⟨skipped, repetition, later, same, free, needed⟩
    cases skipped with
    | nil =>
        cases same
        rw [needed] at optional
        cases optional
    | cons head tail =>
        cases same
        exact ⟨tail, repetition, later, rfl,
          fun other member => free other (List.mem_cons_of_mem item member), needed⟩
  · intro ⟨skipped, repetition, later, same, free, needed⟩
    refine ⟨item :: skipped, repetition, later, by rw [same, List.cons_append], ?_, needed⟩
    intro other member
    rcases List.mem_cons.mp member with atHead | inTail
    · rw [atHead]
      exact Repetition.eq_zeroOrMore_of_isOptional optional
    · exact free other inTail

theorem awaits_cons_of_needed {wanted : Key} {item : Key × Repetition}
    {rest : List (Key × Repetition)} (needed : item.2.isOptional = false) :
    Awaits wanted (item :: rest) ↔ item.1 = wanted := by
  constructor
  · intro ⟨skipped, repetition, later, same, free, _⟩
    cases skipped with
    | nil =>
        cases same
        rfl
    | cons head tail =>
        cases same
        rw [free item List.mem_cons_self] at needed
        cases needed
  · intro same
    refine ⟨[], item.2, rest, by rw [← same, List.nil_append], ?_, needed⟩
    intro other member
    cases member

instance decidableAwaits [DecidableEq Key] (wanted : Key) :
    (items : List (Key × Repetition)) → Decidable (Awaits wanted items)
  | [] => .isFalse (not_awaits_nil wanted)
  | item :: rest =>
      match optional : item.2.isOptional with
      | true =>
          @decidable_of_iff _ _ (awaits_cons_of_optional optional).symm
            (decidableAwaits wanted rest)
      | false => decidable_of_iff (item.1 = wanted) (awaits_cons_of_needed optional).symm

instance decidableStarves [DecidableEq Key] :
    (items : List (Key × Repetition)) → Decidable (Starves items)
  | [] => .isFalse id
  | item :: rest =>
      @instDecidableOr (item.2.loops = true ∧ Awaits item.1 rest) (Starves rest) _
        (decidableStarves rest)

/-! ### Keys under other names -/

variable {Other : Type}

theorem awaits_of_map {rename : Key → Other} {wanted : Key} {items : List (Key × Repetition)}
    (apart : ∀ item ∈ items, rename item.1 = rename wanted → item.1 = wanted)
    (waits : Awaits (rename wanted) (items.map (fun item => (rename item.1, item.2)))) :
    Awaits wanted items := by
  induction items with
  | nil => exact absurd waits (not_awaits_nil _)
  | cons item rest ih =>
      obtain ⟨here, later⟩ := List.forall_mem_cons.mp apart
      rw [List.map_cons] at waits
      obtain ⟨key, repetition⟩ := item
      cases optional : repetition.isOptional with
      | true =>
          rw [awaits_cons_of_optional (by exact optional)] at waits ⊢
          exact ih later waits
      | false =>
          rw [awaits_cons_of_needed (by exact optional)] at waits ⊢
          exact here waits

/-- Items starve under other names only if they do under their own, where the names tell the keys
apart. -/
theorem starves_of_map (rename : Key → Other) {items : List (Key × Repetition)}
    (apart : ∀ left ∈ items, ∀ right ∈ items, rename left.1 = rename right.1 → left.1 = right.1)
    (starves : Starves (items.map (fun item => (rename item.1, item.2)))) : Starves items := by
  induction items with
  | nil => exact starves
  | cons item rest ih =>
      rcases starves with ⟨loops, waits⟩ | deeper
      · refine Or.inl ⟨loops, awaits_of_map ?_ waits⟩
        intro other member same
        exact apart other (List.mem_cons_of_mem item member) item List.mem_cons_self same
      · refine Or.inr (ih ?_ deeper)
        intro left leftMember right rightMember same
        exact apart left (List.mem_cons_of_mem item leftMember) right
          (List.mem_cons_of_mem item rightMember) same

end

namespace Alternative

/-- The literals of an alternative and how often each may match. -/
def repetitions (alternative : Alternative) : List (String × Repetition) :=
  alternative.map (fun element => (element.literal, element.repetition))

end Alternative

end LiteralGrammar
