/-
Laws of exception sets.

A set is what it declares.  So declaring twice is declaring once, the order does
not matter, and a list of names stands for the set of its members.
-/

import LiteralGrammar.Rule.Exceptions

namespace LiteralGrammar

namespace ExceptionSet

theorem insert_insert (exceptions : ExceptionSet) (name : String) :
    (exceptions.insert name).insert name = exceptions.insert name := by
  apply ext_declares
  intro other
  rw [declares_insert, declares_insert, ← Bool.or_assoc, Bool.or_self]

theorem insert_comm (exceptions : ExceptionSet) (first second : String) :
    (exceptions.insert first).insert second = (exceptions.insert second).insert first := by
  apply ext_declares
  intro other
  simp only [declares_insert, Bool.or_left_comm]

theorem declares_foldl_insert (names : List String) (exceptions : ExceptionSet) (name : String) :
    (names.foldl insert exceptions).declares name = true ↔
      name ∈ names ∨ exceptions.declares name = true := by
  induction names generalizing exceptions with
  | nil => simp
  | cons head rest ih =>
      rw [List.foldl_cons, ih, declares_insert, List.mem_cons, Bool.or_eq_true,
        decide_eq_true_eq, or_assoc, or_left_comm]

theorem declares_ofNames (names : List String) (name : String) :
    (ofNames names).declares name = true ↔ name ∈ names := by
  unfold ofNames
  rw [declares_foldl_insert, declares_empty]
  simp only [Bool.false_eq_true, or_false]

/-- Lists with the same members stand for the same set. -/
theorem ofNames_eq_of_mem_iff {left right : List String}
    (same : ∀ name, name ∈ left ↔ name ∈ right) : ofNames left = ofNames right := by
  apply ext_declares
  intro name
  rw [Bool.eq_iff_iff, declares_ofNames, declares_ofNames, same]

theorem ofNames_names (exceptions : ExceptionSet) : ofNames exceptions.names = exceptions := by
  apply ext_declares
  intro name
  rw [Bool.eq_iff_iff, declares_ofNames, mem_names_iff]

end ExceptionSet

end LiteralGrammar
