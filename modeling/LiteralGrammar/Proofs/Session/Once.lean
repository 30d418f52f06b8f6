/-
A session prepares one grammar, once.

Only the first call to prepare does anything, and only to its grammar; the later
ones are refused.  So all that the calls so far have left behind is which
grammar came first, and every call is answered from that alone.
-/

import LiteralGrammar.Proofs.Grammar.Declaring
import LiteralGrammar.Session.Calls

namespace LiteralGrammar

/-! ### Adjusting a grammar -/

namespace Target

theorem adjust_of_ne_apex {target : Target} (other : target ≠ .apex) (grammar : Grammar) :
    target.adjust grammar = grammar := by
  cases target with
  | apex => exact absurd rfl other
  | java => rfl
  | delphi => rfl

theorem declares_of_adjust_apex {grammar : Grammar} {name : String} {rule : Rule}
    (resolved : (Target.apex.adjust grammar).resolveRule? name = some rule) :
    rule.exceptions.declares recognitionException = true :=
  Grammar.declares_of_reached (Grammar.mem_of_resolveRule? resolved)

end Target

namespace Session

variable {Key : Type}

theorem firstPrepared?_cons (call : Call Key) (rest : List (Call Key)) :
    firstPrepared? (call :: rest) = call.prepared?.or (firstPrepared? rest) := by
  cases call with
  | prepare key => rfl
  | tokenLiterals key => rfl

theorem firstPrepared?_isSome_iff (calls : List (Call Key)) :
    (firstPrepared? calls).isSome = true ↔ ∃ key, Call.prepare key ∈ calls := by
  unfold firstPrepared?
  rw [List.isSome_findSome?, List.any_eq_true]
  constructor
  · intro ⟨call, member, asked⟩
    cases call with
    | prepare key => exact ⟨key, member⟩
    | tokenLiterals key => cases asked
  · intro ⟨key, member⟩
    exact ⟨_, member, rfl⟩

variable [DecidableEq Key]

namespace Workspace

/-- The grammars after one of them, or none, has been adjusted. -/
def adjusted (options : Options) (grammars : Key → Grammar) : Option Key → Key → Grammar
  | none => grammars
  | some first => Function.update grammars first (options.target.adjust (grammars first))

/-- What is left behind once the first call to prepare, if any, has been made. -/
def reached (options : Options) (grammars : Key → Grammar) (first : Option Key) :
    Workspace Key :=
  { session := { options := options, prepared := first.isSome }
    grammars := adjusted options grammars first }

section

variable (options : Options) (grammars : Key → Grammar)

theorem adjusted_some (first : Key) :
    adjusted options grammars (some first) =
      Function.update grammars first (options.target.adjust (grammars first)) := rfl

/-- All but the declared exceptions stays as it is, in every grammar. -/
theorem bare_adjusted (first : Option Key) (key : Key) :
    (adjusted options grammars first key).bare = (grammars key).bare := by
  cases first with
  | none => rfl
  | some first =>
      rw [adjusted_some]
      by_cases same : key = first
      · rw [same, Function.update_self]
        exact (Grammar.Prepares.adjust options.target (grammars first)).bare_eq
      · rw [Function.update_of_ne same]

theorem vocabulary_adjusted (first : Option Key) (key : Key) :
    (adjusted options grammars first key).vocabulary = (grammars key).vocabulary := by
  rw [← Grammar.vocabulary_bare, bare_adjusted, Grammar.vocabulary_bare]

theorem adjusted_of_ne_apex {options : Options} (plain : options.target ≠ .apex)
    (grammars : Key → Grammar) (first : Option Key) :
    adjusted options grammars first = grammars := by
  cases first with
  | none => rfl
  | some first =>
      rw [adjusted_some, Target.adjust_of_ne_apex plain, Function.update_eq_self]

/-! ### One call -/

theorem perform_prepare_none (key : Key) :
    (reached options grammars none).perform (.prepare key) =
      (.ok .prepared, reached options grammars (some key)) := rfl

theorem perform_prepare_some (first key : Key) :
    (reached options grammars (some first)).perform (.prepare key) =
      (.error (.alreadyPrepared options.target), reached options grammars (some first)) := rfl

/-- The literals of a grammar do not depend on what was prepared. -/
theorem perform_tokenLiterals (first : Option Key) (key : Key) :
    (reached options grammars first).perform (.tokenLiterals key) =
      ((renderLiterals options.target (grammars key).vocabulary.literals).map Answer.literals,
        reached options grammars first) := by
  rw [← vocabulary_adjusted options grammars first key]
  rfl

theorem perform_reached (first : Option Key) (call : Call Key) :
    ((reached options grammars first).perform call).2 =
      reached options grammars (first.or call.prepared?) := by
  cases call with
  | prepare key =>
      cases first with
      | none => rw [perform_prepare_none]; rfl
      | some first => rw [perform_prepare_some]; rfl
  | tokenLiterals key =>
      rw [perform_tokenLiterals, Call.prepared?, Option.or_none]

/-! ### Any number of calls -/

/-- The induction is on the calls; the first that prepares decides where they lead. -/
theorem after_reached (first : Option Key) (calls : List (Call Key)) :
    (reached options grammars first).after calls =
      reached options grammars (first.or (firstPrepared? calls)) := by
  induction calls generalizing first with
  | nil =>
      rw [firstPrepared?, List.findSome?_nil, Option.or_none]
      rfl
  | cons call rest ih =>
      change ((reached options grammars first).perform call).2.after rest = _
      rw [perform_reached, ih, Option.or_assoc, firstPrepared?_cons]

theorem after_start (calls : List (Call Key)) :
    (start options grammars).after calls = reached options grammars (firstPrepared? calls) :=
  after_reached options grammars none calls

end

/-! ### The whole run -/

/-- What holds of a workspace that some calls have led to, and of the next call. -/
structure PreparesOnce (options : Options) (grammars : Key → Grammar) (calls : List (Call Key))
    (workspace : Workspace Key) : Prop where
  same : workspace.session.options = options
  prepared : workspace.session.prepared = true ↔ ∃ key, Call.prepare key ∈ calls
  untouched : (∀ key, Call.prepare key ∉ calls) → workspace.grammars = grammars
  touched : ∀ first, firstPrepared? calls = some first →
    workspace.grammars =
      Function.update grammars first (options.target.adjust (grammars first))
  kept : options.target ≠ .apex → workspace.grammars = grammars
  declared : options.target = .apex → ∀ first, firstPrepared? calls = some first →
    ∀ name rule, (workspace.grammars first).resolveRule? name = some rule →
      rule.exceptions.declares recognitionException = true
  framed : ∀ key, (workspace.grammars key).bare = (grammars key).bare
  accepted : (∀ key, Call.prepare key ∉ calls) → ∀ key,
    workspace.perform (.prepare key) =
      (.ok .prepared,
        { session := { options := options, prepared := true }
          grammars :=
            Function.update grammars key (options.target.adjust (grammars key)) })
  refused : (∃ key, Call.prepare key ∈ calls) → ∀ key, ∃ fault,
    workspace.perform (.prepare key) = (.error fault, workspace) ∧
      fault.message = "post-analysis already ran for this " ++ options.target.name ++ " session"
  rendered : ∀ key, workspace.perform (.tokenLiterals key) =
    ((renderLiterals options.target (grammars key).vocabulary.literals).map Answer.literals,
      workspace)

/-- A session prepares one grammar, once, whatever it is called for and in whatever order: the
first call to prepare adjusts its grammar and no other, later ones are refused with the name of the
target and leave everything as it is, and rendering literals never changes anything.  Whatever the
target, nothing but declared exceptions is ever changed in a grammar. -/
theorem after_prepares_once (options : Options) (grammars : Key → Grammar)
    (calls : List (Call Key)) :
    PreparesOnce options grammars calls ((start options grammars).after calls) := by
  rw [after_start]
  have called := firstPrepared?_isSome_iff calls
  have none_of_uncalled (uncalled : ∀ key, Call.prepare key ∉ calls) :
      firstPrepared? calls = none := by
    rw [← Option.not_isSome_iff_eq_none, called]
    exact not_exists.mpr uncalled
  exact {
    same := rfl
    prepared := called
    untouched := fun uncalled => by
      rw [none_of_uncalled uncalled]
      rfl
    touched := fun first found => by
      rw [found]
      rfl
    kept := fun plain => adjusted_of_ne_apex plain grammars (firstPrepared? calls)
    declared := fun apex first found name rule resolved => by
      have adjustedGrammar : adjusted options grammars (firstPrepared? calls) first =
          Target.apex.adjust (grammars first) := by
        rw [found, adjusted_some, Function.update_self, apex]
      apply Target.declares_of_adjust_apex
      rw [← adjustedGrammar]
      exact resolved
    framed := bare_adjusted options grammars (firstPrepared? calls)
    accepted := fun uncalled key => by
      rw [none_of_uncalled uncalled]
      exact perform_prepare_none options grammars key
    refused := fun asked key => by
      obtain ⟨first, found⟩ := Option.isSome_iff_exists.mp (called.mpr asked)
      rw [found]
      exact ⟨_, perform_prepare_some options grammars first key, rfl⟩
    rendered := perform_tokenLiterals options grammars (firstPrepared? calls) }

end Workspace

end Session

end LiteralGrammar
