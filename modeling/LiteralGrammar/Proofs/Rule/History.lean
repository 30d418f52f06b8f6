/-
Exception sets after a run of declarations.

A declaration answers whether its name is new.  A run on the empty set leads to
the set of its names, so what it ends in does not depend on their order or on
how often one of them comes; only the answers do, which count the names.
-/

import LiteralGrammar.Proofs.Rule.Exceptions
import Mathlib.Data.List.Count

namespace LiteralGrammar

/-- Names are ordered by the codes of their characters. -/
theorem codes_lt {left right : String} (before : left < right) :
    left.toList.map Char.toNat < right.toList.map Char.toNat := by
  have characters : left.toList < right.toList := before
  exact List.map_lt (fun _ _ less => less) characters

namespace ExceptionSet

/-- Declares names in a row; also answers for each whether it was new. -/
def requireEach (exceptions : ExceptionSet) : List String → List Bool × ExceptionSet
  | [] => ([], exceptions)
  | name :: rest =>
      let required := exceptions.require name
      let later := required.2.requireEach rest
      (required.1 :: later.1, later.2)

theorem requireEach_cons_fst (exceptions : ExceptionSet) (name : String) (rest : List String) :
    (exceptions.requireEach (name :: rest)).1 =
      (!exceptions.declares name) :: ((exceptions.insert name).requireEach rest).1 := by
  rw [requireEach, require_snd, require_fst]

theorem requireEach_cons_snd (exceptions : ExceptionSet) (name : String) (rest : List String) :
    (exceptions.requireEach (name :: rest)).2 = ((exceptions.insert name).requireEach rest).2 := by
  rw [requireEach, require_snd]

theorem requireEach_snd (exceptions : ExceptionSet) (names : List String) :
    (exceptions.requireEach names).2 = names.foldl insert exceptions := by
  induction names generalizing exceptions with
  | nil => rfl
  | cons name rest ih => rw [requireEach_cons_snd, ih, List.foldl_cons]

theorem declares_requireEach (exceptions : ExceptionSet) (names : List String) (name : String) :
    (exceptions.requireEach names).2.declares name = true ↔
      name ∈ names ∨ exceptions.declares name = true := by
  rw [requireEach_snd, declares_foldl_insert]

/-- A name is new where neither the set nor the run so far has it. -/
theorem requireEach_answer (exceptions : ExceptionSet) (names : List String) (index : Nat) :
    (exceptions.requireEach names).1[index]? =
      names[index]?.map (fun name =>
        !exceptions.declares name && decide (name ∉ names.take index)) := by
  induction names generalizing exceptions index with
  | nil => rfl
  | cons first rest ih =>
      rw [requireEach_cons_fst]
      cases index with
      | zero => simp
      | succ index =>
          rw [List.getElem?_cons_succ, ih, List.getElem?_cons_succ, List.take_succ_cons]
          apply Option.map_congr
          intro name _
          simp only [declares_insert, List.mem_cons, not_or, Bool.decide_and, Bool.not_or,
            decide_not, Bool.and_assoc, Bool.and_left_comm]

/-! ### Counting -/

theorem names_nodup (exceptions : ExceptionSet) : exceptions.names.Nodup :=
  exceptions.members.keys_nodup

/-- A new name makes the list of names longer by one. -/
theorem length_names_insert {exceptions : ExceptionSet} {name : String}
    (new : exceptions.declares name = false) :
    (exceptions.insert name).names.length = exceptions.names.length + 1 := by
  have distinct : (name :: exceptions.names).Nodup := by
    rw [List.nodup_cons, mem_names_iff, new]
    exact ⟨Bool.false_ne_true, exceptions.names_nodup⟩
  have sameMembers := (List.perm_ext_iff_of_nodup (names_nodup _) distinct).mpr
    (fun other => by
      rw [mem_names_iff, declares_insert, List.mem_cons, mem_names_iff, Bool.or_eq_true,
        decide_eq_true_eq])
  rw [sameMembers.length_eq, List.length_cons]

theorem insert_of_declares {exceptions : ExceptionSet} {name : String}
    (known : exceptions.declares name = true) : exceptions.insert name = exceptions := by
  rw [← require_snd, require, if_pos known]

/-- Each name that was new has made the list of names longer by one. -/
theorem count_requireEach (exceptions : ExceptionSet) (names : List String) :
    exceptions.names.length + (exceptions.requireEach names).1.count true =
      (exceptions.requireEach names).2.names.length := by
  induction names generalizing exceptions with
  | nil => rfl
  | cons name rest ih =>
      rw [requireEach_cons_fst, requireEach_cons_snd, ← ih (exceptions.insert name)]
      cases known : exceptions.declares name with
      | true =>
          rw [insert_of_declares known, Bool.not_true, List.count_cons_of_ne Bool.false_ne_true]
      | false =>
          rw [length_names_insert known, Bool.not_false, List.count_cons_self]
          omega

/-! ### The whole run -/

/-- What a run of declarations has answered, and what holds of the set that it has led to. -/
structure Records (names : List String) (answers : List Bool) (exceptions : ExceptionSet) :
    Prop where
  listed : ∀ name, name ∈ exceptions.names ↔ name ∈ names
  ascending : (exceptions.names.map (fun name => name.toList.map Char.toNat)).Pairwise (· < ·)
  distinct : exceptions.names.Nodup
  answered : ∀ index, answers[index]? =
    names[index]?.map (fun name => decide (name ∉ names.take index))
  counted : answers.count true = exceptions.names.length
  declared : ∀ name, exceptions.declares name = true ↔ name ∈ names
  kept : ∀ later name, exceptions.declares name = true →
    (exceptions.requireEach later).2.declares name = true
  /-- Runs of the same names lead to this very set, in any order and with any repetitions. -/
  same : ∀ others, (∀ name, name ∈ others ↔ name ∈ names) →
    (empty.requireEach others).2 = exceptions

/-- A run of declarations on the empty set lists its names once each, in ascending order, and
answers for each of them whether it had not come before. -/
theorem requireEach_records (names : List String) :
    Records names (empty.requireEach names).1 (empty.requireEach names).2 := by
  have declared (name : String) :
      (empty.requireEach names).2.declares name = true ↔ name ∈ names := by
    rw [declares_requireEach, declares_empty]
    simp only [Bool.false_eq_true, or_false]
  exact {
    listed := fun name => by rw [mem_names_iff, declared]
    ascending := List.pairwise_map.mpr ((names_ascending _).imp codes_lt)
    distinct := names_nodup _
    answered := fun index => by
      rw [requireEach_answer]
      simp only [declares_empty, Bool.not_false, Bool.true_and]
    counted := by
      rw [← count_requireEach]
      exact (Nat.zero_add _).symm
    declared := declared
    kept := fun later name known => (declares_requireEach _ later name).mpr (Or.inr known)
    same := fun others sameNames => by
      rw [requireEach_snd, requireEach_snd]
      exact ofNames_eq_of_mem_iff sameNames }

end ExceptionSet

end LiteralGrammar
