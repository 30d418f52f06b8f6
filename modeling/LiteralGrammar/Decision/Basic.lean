/-
Choosing an alternative of a rule by the tokens ahead.

All alternatives are followed at once.  A configuration says how far one of
them has come; the configurations after a number of tokens decide whether a
single alternative is left, and which are complete.
-/

import LiteralGrammar.Rule.Basic
import LiteralGrammar.Token.Basic
import LiteralGrammar.Vocabulary.Basic

namespace LiteralGrammar

structure Slot where
  type : TokenType
  repetition : Repetition
  deriving DecidableEq, Repr

/-- The alternatives of a rule by the types of their literals. -/
structure Decision where
  alternatives : List (List Slot)
  deriving DecidableEq, Repr

/-- Which alternative, how many of its slots lie behind, and whether the slot ahead has matched
at least once. -/
structure Config where
  alternative : Nat
  position : Nat
  looping : Bool
  deriving DecidableEq, Repr

namespace Slot

def ofElement (vocabulary : Vocabulary) (element : Element) : Slot :=
  { type := (vocabulary.tokenType? element.literal).getD TokenType.undefined
    repetition := element.repetition }

/-- A slot has the type of its literal where there is one. -/
theorem type_ofElement {vocabulary : Vocabulary} {element : Element} {type : TokenType}
    (known : vocabulary.tokenType? element.literal = some type) :
    (ofElement vocabulary element).type = type := by
  unfold ofElement
  rw [known]
  rfl

/-- Whether the slot can be left without another match. -/
def canLeave (slot : Slot) (looping : Bool) : Bool :=
  slot.repetition.isOptional || (slot.repetition.loops && looping)

end Slot

namespace Decision

def ofRule (vocabulary : Vocabulary) (rule : Rule) : Decision :=
  { alternatives :=
      rule.alternatives.map (fun alternative => alternative.map (Slot.ofElement vocabulary)) }

def slots (decision : Decision) (alternative : Nat) : List Slot :=
  (decision.alternatives[alternative]?).getD []

def ahead (decision : Decision) (config : Config) : List Slot :=
  (decision.slots config.alternative).drop config.position

/-- The configurations that can be reached without a token, given the slots ahead. -/
def reach (alternative : Nat) : Nat → Bool → List Slot → List Config
  | position, looping, [] => [⟨alternative, position, looping⟩]
  | position, looping, slot :: rest =>
      ⟨alternative, position, looping⟩ ::
        (if slot.canLeave looping then reach alternative (position + 1) false rest else [])

/-- The configurations that can be reached without a token. -/
def closure (decision : Decision) (config : Config) : List Config :=
  reach config.alternative config.position config.looping (decision.ahead config)

def distinct (configs : List Config) : List Config :=
  configs.foldr List.insert []

theorem mem_distinct (config : Config) (configs : List Config) :
    config ∈ distinct configs ↔ config ∈ configs := by
  induction configs with
  | nil => exact Iff.rfl
  | cons head rest ih =>
      change config ∈ List.insert head (distinct rest) ↔ _
      rw [List.mem_insert_iff, ih, List.mem_cons]

theorem distinct_nodup (configs : List Config) : (distinct configs).Nodup := by
  induction configs with
  | nil => exact List.nodup_nil
  | cons head rest ih =>
      change (List.insert head (distinct rest)).Nodup
      by_cases present : head ∈ distinct rest
      · rw [List.insert_of_mem present]
        exact ih
      · rw [List.insert_of_not_mem present]
        exact List.nodup_cons.mpr ⟨present, ih⟩

def start (decision : Decision) : List Config :=
  distinct ((List.range decision.alternatives.length).flatMap (fun alternative =>
    decision.closure ⟨alternative, 0, false⟩))

/-- Where a token takes one configuration, before anything is left. -/
def move? (decision : Decision) (type : TokenType) (config : Config) : Option Config :=
  match decision.ahead config with
  | [] => none
  | slot :: _ =>
      if slot.type = type then
        if slot.repetition.loops then some { config with looping := true }
        else some { config with position := config.position + 1, looping := false }
      else none

/-- The configurations after one more token. -/
def step (decision : Decision) (configs : List Config) (type : TokenType) : List Config :=
  distinct ((configs.filterMap (decision.move? type)).flatMap decision.closure)

def after (decision : Decision) (types : List TokenType) : List Config :=
  types.foldl decision.step decision.start

/-- The alternative that all configurations belong to. -/
def sole? : List Config → Option Nat
  | [] => none
  | first :: rest =>
      if rest.all (fun config => config.alternative = first.alternative) then
        some first.alternative
      else none

def lowest? (configs : List Config) : Option Nat :=
  (configs.map Config.alternative).min?

def isComplete (decision : Decision) (config : Config) : Bool :=
  config.position = (decision.slots config.alternative).length

/-- Prediction from given configurations.  A token at which it fails is the error; `last` is the
token read before the rest. -/
def predictFrom (decision : Decision) (configs : List Config) (last : Token) :
    List Token → Except Token Nat
  | [] =>
      match lowest? configs with
      | some alternative => .ok alternative
      | none => .error last
  | token :: rest =>
      match sole? configs with
      | some alternative => .ok alternative
      | none =>
          let next := decision.step configs token.type
          if next.isEmpty then
            match lowest? (configs.filter decision.isComplete) with
            | some alternative => .ok alternative
            | none => .error token
          else decision.predictFrom next token rest

/-- The alternative that the tokens can only belong to, or else the lowest complete one where no
alternative goes on. -/
def predict (decision : Decision) (tokens : List Token) : Except Token Nat :=
  decision.predictFrom decision.start (Token.endOfInput Position.start) tokens

end Decision

end LiteralGrammar
