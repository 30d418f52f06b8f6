/-
Grammars that are stored and restored in the course of a run.

A grammar may be stored in any wording that says the same as the written form,
and a different one each time.  Since it is restored as it was, a run with such
steps between its operations gives the answers that the operations give alone.
-/

import LiteralGrammar.Proofs.Cache.Wording

namespace LiteralGrammar.Cache

/-- A way to store grammars: forms that say the same as the written ones. -/
structure Storing where
  form : Grammar → Json
  faithful : ∀ grammar, ∃ depth, SameGrammar depth (write grammar) (form grammar)

instance : Inhabited Storing :=
  ⟨{ form := write
     faithful := fun _ => ⟨0, rfl⟩ }⟩

theorem Storing.read_form (storing : Storing) (grammar : Grammar) :
    read (storing.form grammar) = some grammar := by
  obtain ⟨depth, alike⟩ := storing.faithful grammar
  rw [← read_eq_of_sameGrammar depth alike, read_write]

/-! ### Runs with restored grammars -/

/-- What is done with a grammar gives an answer and leaves a grammar behind. -/
abbrev Operation (Answer : Type) := Grammar → Answer × Grammar

inductive Step (Answer : Type) where
  | use (operation : Operation Answer)
  | restore (storing : Storing)

def Step.operation? {Answer : Type} : Step Answer → Option (Operation Answer)
  | .use operation => some operation
  | .restore _ => none

/-- The answers of the steps and the grammar at the end, unless some stored form is not read. -/
def run {Answer : Type} : List (Step Answer) → Grammar → Option (List Answer × Grammar)
  | [], grammar => some ([], grammar)
  | .use operation :: rest, grammar => do
      let (answers, last) ← run rest (operation grammar).2
      return ((operation grammar).1 :: answers, last)
  | .restore storing :: rest, grammar => do
      run rest (← read (storing.form grammar))

def useAll {Answer : Type} : List (Operation Answer) → Grammar → List Answer × Grammar
  | [], grammar => ([], grammar)
  | operation :: rest, grammar =>
      let (answers, last) := useAll rest (operation grammar).2
      ((operation grammar).1 :: answers, last)

/-- Storing and restoring in between changes no answer, and no grammar at the end. -/
theorem run_eq_useAll {Answer : Type} (steps : List (Step Answer)) (grammar : Grammar) :
    run steps grammar = some (useAll (steps.filterMap Step.operation?) grammar) := by
  induction steps generalizing grammar with
  | nil => rfl
  | cons step rest ih =>
      cases step with
      | use operation =>
          rw [run, ih]
          rfl
      | restore storing =>
          rw [run, storing.read_form]
          exact ih grammar

/-- A stored grammar is the same grammar.  Reading accepts what was written and undoes it, in
whatever wording and at whatever points of a run; whatever is read is written in a form that is
read alike; and values that say the same are read alike, so that neither fields that the form
does not know nor the order and the repetition of exceptions matter. -/
theorem read_write_faithful :
    (∀ grammar, read (write grammar) = some grammar) ∧
    (∀ (Answer : Type) (steps : List (Step Answer)) (grammar : Grammar),
      run steps grammar = some (useAll (steps.filterMap Step.operation?) grammar)) ∧
    (∀ json grammar, read json = some grammar → read (write grammar) = read json) ∧
    (∀ (depth : Nat) (left right : Json),
      SameGrammar depth left right → read left = read right) := by
  refine ⟨read_write, fun Answer => run_eq_useAll, ?_, ?_⟩
  · intro json grammar found
    rw [read_write, found]
  · intro depth left right alike
    exact read_eq_of_sameGrammar depth alike

end LiteralGrammar.Cache
