/-
The set of exceptions that the code for a rule may raise.

The set only grows and lists its names in ascending order.  What order they
were declared in, and how often, leaves no trace.
-/

import LiteralGrammar.NameMap

namespace LiteralGrammar

structure ExceptionSet where
  members : NameMap Unit
  deriving DecidableEq

namespace ExceptionSet

def empty : ExceptionSet :=
  { members := NameMap.empty }

def insert (exceptions : ExceptionSet) (name : String) : ExceptionSet :=
  { members := exceptions.members.insert name () }

def declares (exceptions : ExceptionSet) (name : String) : Bool :=
  exceptions.members.contains name

def names (exceptions : ExceptionSet) : List String :=
  exceptions.members.keys

/-- Declares a name; also answers whether it is new. -/
def require (exceptions : ExceptionSet) (name : String) : Bool × ExceptionSet :=
  if exceptions.declares name then (false, exceptions) else (true, exceptions.insert name)

def ofNames (names : List String) : ExceptionSet :=
  names.foldl insert empty

theorem mem_names_iff (exceptions : ExceptionSet) (name : String) :
    name ∈ exceptions.names ↔ exceptions.declares name = true :=
  exceptions.members.mem_keys_iff name

theorem names_ascending (exceptions : ExceptionSet) : exceptions.names.Pairwise (· < ·) :=
  exceptions.members.keys_ascending

theorem declares_empty (name : String) : empty.declares name = false := rfl

theorem declares_insert (exceptions : ExceptionSet) (name other : String) :
    (exceptions.insert name).declares other = (other = name || exceptions.declares other) := by
  unfold declares NameMap.contains insert
  rw [NameMap.find?_insert]
  by_cases same : other = name
  · rw [if_pos same]
    simp [same]
  · rw [if_neg same]
    simp [same]

theorem ext_declares {left right : ExceptionSet}
    (same : ∀ name, left.declares name = right.declares name) : left = right := by
  have membersEqual : left.members = right.members := by
    apply NameMap.ext_find?
    intro name
    have present := same name
    unfold declares NameMap.contains at present
    cases leftFound : left.members.find? name <;> cases rightFound : right.members.find? name
    · rfl
    · rw [leftFound, rightFound] at present
      cases present
    · rw [leftFound, rightFound] at present
      cases present
    · rfl
  cases left
  cases right
  cases membersEqual
  rfl

theorem require_snd (exceptions : ExceptionSet) (name : String) :
    (exceptions.require name).2 = exceptions.insert name := by
  unfold require
  split
  · rename_i present
    apply ext_declares
    intro other
    rw [declares_insert]
    by_cases same : other = name
    · rw [same, present]
      simp
    · simp [same]
  · rfl

theorem require_fst (exceptions : ExceptionSet) (name : String) :
    (exceptions.require name).1 = !exceptions.declares name := by
  unfold require
  split
  · rename_i present
    rw [present]
    rfl
  · rename_i absent
    rw [Bool.eq_false_iff.mpr absent]
    rfl

end ExceptionSet

end LiteralGrammar
