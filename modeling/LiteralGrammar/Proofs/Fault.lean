/-
Computations that end in a result or a fault, taken apart step by step.
-/

import LiteralGrammar.Fault

namespace LiteralGrammar

variable {Error Value Other : Type}

/-- What a computation fails with, if it does. -/
def failure? : Except Error Value → Option Error
  | .ok _ => none
  | .error fault => some fault

theorem failure?_map (first : Except Error Value) (function : Value → Other) :
    failure? (first.map function) = failure? first := by
  cases first with
  | error fault => rfl
  | ok value => rfl

/-- Of two computations in a row the first that fails decides. -/
theorem failure?_bind_map {Result : Type} (first : Except Error Value)
    (second : Except Error Other) (function : Value → Other → Result) :
    failure? (first >>= fun value => second >>= fun other => .ok (function value other)) =
      (failure? first).or (failure? second) := by
  cases first with
  | error fault => rfl
  | ok value =>
      cases second with
      | error fault => rfl
      | ok other => rfl

/-- Two computations in a row succeed when the first does and the second does on its result. -/
theorem bind_eq_ok_iff {first : Except Error Value} {second : Value → Except Error Other}
    {result : Other} :
    (first >>= second) = .ok result ↔
      ∃ middle, first = .ok middle ∧ second middle = .ok result := by
  cases first with
  | error fault =>
      constructor
      · intro impossible
        cases impossible
      · intro ⟨middle, impossible, _⟩
        cases impossible
  | ok value =>
      constructor
      · intro found
        exact ⟨value, rfl, found⟩
      · intro ⟨middle, same, found⟩
        cases same
        exact found

theorem map_eq_ok_iff {first : Except Error Value} {function : Value → Other} {result : Other} :
    first.map function = .ok result ↔ ∃ middle, first = .ok middle ∧ function middle = result := by
  cases first with
  | error fault =>
      constructor
      · intro impossible
        cases impossible
      · intro ⟨middle, impossible, _⟩
        cases impossible
  | ok value =>
      constructor
      · intro found
        exact ⟨value, rfl, Except.ok.inj found⟩
      · intro ⟨middle, same, found⟩
        cases same
        rw [← found]
        rfl

end LiteralGrammar
