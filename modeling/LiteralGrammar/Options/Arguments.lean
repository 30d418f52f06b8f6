/-
What the arguments of one run of code generation may say.

A good argument asks for one thing; a bad one is to blame for one error.  Both
are told from the text alone, whatever the options are so far.
-/

import LiteralGrammar.Options
import Mathlib.Data.List.Forall2

namespace LiteralGrammar

/-- A capital letter of ASCII and its small letter. -/
def Capital (capital small : Char) : Prop :=
  'A' ≤ capital ∧ capital ≤ 'Z' ∧ small.toNat = capital.toNat + 32

def SameButCase (left right : Char) : Prop :=
  left = right ∨ Capital left right ∨ Capital right left

/-- Whether a text is the name of the target, up to the case of ASCII letters. -/
def Target.NamedBy (target : Target) (text : String) : Prop :=
  List.Forall₂ SameButCase target.name.toList text.toList

namespace Options

inductive Request where
  | target (target : Target)
  | verbose
  deriving DecidableEq, Repr

/-- What a good argument asks for. -/
inductive Asks : String → Request → Prop where
  | target {target : Target} (name : String) (named : target.NamedBy name) :
      Asks ("--target=" ++ name) (.target target)
  | short : Asks "-v" .verbose
  | long : Asks "--verbose" .verbose

def Good (argument : String) : Prop :=
  ∃ request, Asks argument request

/-- The error that a bad argument is to blame for. -/
inductive Blamed : String → OptionError → Prop where
  | target (name : String) (unnamed : ∀ target : Target, ¬target.NamedBy name) :
      Blamed ("--target=" ++ name) (.unknownTarget ⟨name⟩)
  | option (argument : String) (noTarget : ∀ name, argument ≠ "--target=" ++ name)
      (notShort : argument ≠ "-v") (notLong : argument ≠ "--verbose") :
      Blamed argument (.unknownOption argument)

/-- Whether a target is the one that the last argument with the target flag names, or else the
one from before. -/
def LastTarget (arguments : List String) (before target : Target) : Prop :=
  (∃ earlier name later, arguments = earlier ++ ("--target=" ++ name) :: later ∧
      target.NamedBy name ∧ ∀ argument ∈ later, ∀ other, argument ≠ "--target=" ++ other) ∨
    ((∀ argument ∈ arguments, ∀ name, argument ≠ "--target=" ++ name) ∧ target = before)

end Options

end LiteralGrammar
