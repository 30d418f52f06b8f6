/-
The output languages, and how one is chosen by name.

What a language's literals look like is not decided here.
-/

namespace LiteralGrammar

inductive Target where
  | java
  | apex
  | delphi
  deriving DecidableEq, Repr

namespace Target

def all : List Target :=
  [.java, .apex, .delphi]

def name : Target → String
  | .java => "Java"
  | .apex => "Apex"
  | .delphi => "Delphi"

theorem mem_all (target : Target) : target ∈ all := by
  cases target <;> decide

theorem name_injective {left right : Target} (same : left.name = right.name) : left = right := by
  revert same
  cases left <;> cases right <;> decide

def foldCase (text : String) : List Char :=
  text.toList.map Char.toLower

def ofName? (text : String) : Option Target :=
  all.find? (fun target => foldCase target.name = foldCase text)

theorem ofName?_eq_some_iff (text : String) (target : Target) :
    ofName? text = some target ↔ foldCase target.name = foldCase text := by
  constructor
  · intro found
    have satisfied := List.find?_some found
    exact of_decide_eq_true satisfied
  · intro same
    unfold ofName?
    rw [← same]
    cases target <;> decide

theorem ofName?_name (target : Target) : ofName? target.name = some target :=
  (ofName?_eq_some_iff target.name target).2 rfl

end Target

structure UnknownTarget where
  name : String
  deriving DecidableEq, Repr

namespace UnknownTarget

def message (unknown : UnknownTarget) : String :=
  "unknown target language '" ++ unknown.name ++ "' (supported: Java, Apex, Delphi)"

end UnknownTarget

namespace Target

def ofName (text : String) : Except UnknownTarget Target :=
  match ofName? text with
  | some target => .ok target
  | none => .error ⟨text⟩

theorem ofName_eq_ok_iff (text : String) (target : Target) :
    ofName text = .ok target ↔ foldCase target.name = foldCase text := by
  rw [← ofName?_eq_some_iff]
  unfold ofName
  cases ofName? text <;> simp

theorem ofName_eq_error_iff (text : String) (unknown : UnknownTarget) :
    ofName text = .error unknown ↔ ofName? text = none ∧ unknown = ⟨text⟩ := by
  unfold ofName
  cases ofName? text <;> simp [eq_comm]

end Target

end LiteralGrammar
