/-
Elements of a rule's alternatives: a literal and how often it may match.
-/

import LiteralGrammar.Literal.Basic

namespace LiteralGrammar

inductive Repetition where
  | once
  | zeroOrMore
  | oneOrMore
  deriving DecidableEq, Repr

namespace Repetition

def mark : Repetition → List Char
  | .once => []
  | .zeroOrMore => ['*']
  | .oneOrMore => ['+']

def ofMark? (text : String) : Option Repetition :=
  [.once, .zeroOrMore, .oneOrMore].find? (fun repetition => repetition.mark = text.toList)

def isOptional : Repetition → Bool
  | .zeroOrMore => true
  | _ => false

def loops : Repetition → Bool
  | .once => false
  | _ => true

def Allows : Repetition → Nat → Prop
  | .once, count => count = 1
  | .zeroOrMore, _ => True
  | .oneOrMore, count => 0 < count

theorem allows_zero_iff (repetition : Repetition) :
    repetition.Allows 0 ↔ repetition.isOptional = true := by
  cases repetition <;> simp [Allows, isOptional]

theorem allows_one (repetition : Repetition) : repetition.Allows 1 := by
  cases repetition <;> simp [Allows]

theorem eq_zeroOrMore_of_isOptional {repetition : Repetition}
    (optional : repetition.isOptional = true) : repetition = .zeroOrMore := by
  cases repetition with
  | once => cases optional
  | zeroOrMore => rfl
  | oneOrMore => cases optional

theorem eq_once_of_not_loops {repetition : Repetition} (single : ¬repetition.loops = true) :
    repetition = .once := by
  cases repetition with
  | once => rfl
  | zeroOrMore => exact absurd rfl single
  | oneOrMore => exact absurd rfl single

theorem allows_succ_of_loops {repetition : Repetition} (loops : repetition.loops = true)
    (count : Nat) : repetition.Allows (count + 1) := by
  cases repetition with
  | once => cases loops
  | zeroOrMore => exact trivial
  | oneOrMore => exact Nat.succ_pos count

theorem eq_one_of_allows {repetition : Repetition} {count : Nat}
    (allowed : repetition.Allows count) (single : ¬repetition.loops = true) : count = 1 := by
  rw [eq_once_of_not_loops single] at allowed
  exact allowed

end Repetition

structure Element where
  literal : String
  repetition : Repetition
  deriving DecidableEq, Repr

namespace Element

/-- An element for a literal, whose delimiters are checked. -/
def ofLiteral (literal : String) (repetition : Repetition) : Except Fault Element :=
  (Literal.interior literal).map (fun _ => { literal := literal, repetition := repetition })

theorem ofLiteral_enclose (body : List Char) (repetition : Repetition) :
    ofLiteral (Literal.enclose body) repetition =
      .ok { literal := Literal.enclose body, repetition := repetition } := by
  unfold ofLiteral
  rw [Literal.interior_enclose]
  rfl

def value (element : Element) : Except Fault String :=
  Literal.decode element.literal

def spelling (element : Element) : List Char :=
  element.literal.toList ++ element.repetition.mark

def display (element : Element) : String :=
  String.ofList element.spelling

end Element

end LiteralGrammar
