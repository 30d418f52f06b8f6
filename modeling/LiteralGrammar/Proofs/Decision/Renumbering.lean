/-
Decisions whose types are numbered in two ways.

Types of two numberings are paired such that each has one partner at most.  On
paired tokens, decisions with paired slots go through the same configurations,
because all that is ever asked of two types is whether they are equal.  So they
predict the same alternative, or fail at paired tokens, and a match of paired
slots stops at the same place.
-/

import LiteralGrammar.Decision.Matching
import Mathlib.Data.List.Forall2

namespace LiteralGrammar

/-- Which types of two numberings belong together; the type that marks the end keeps to itself. -/
structure Renumbering where
  Pairs : TokenType → TokenType → Prop
  ends : Pairs TokenType.endOfInput TokenType.endOfInput
  unique {left right otherLeft otherRight : TokenType} (paired : Pairs left right)
    (otherPaired : Pairs otherLeft otherRight) : left = otherLeft ↔ right = otherRight

namespace Renumbering

structure PairsSlot (numbering : Renumbering) (left right : Slot) : Prop where
  type : numbering.Pairs left.type right.type
  repetition : left.repetition = right.repetition

/-- Tokens at the same place with the same text, though with types of different numberings. -/
structure PairsToken (numbering : Renumbering) (left right : Token) : Prop where
  type : numbering.Pairs left.type right.type
  text : left.text = right.text
  position : left.position = right.position

inductive PairsPrediction (numbering : Renumbering) :
    Except Token Nat → Except Token Nat → Prop where
  | ok (alternative : Nat) : PairsPrediction numbering (.ok alternative) (.ok alternative)
  | error {left right : Token} (token : numbering.PairsToken left right) :
      PairsPrediction numbering (.error left) (.error right)

inductive PairsMatch (numbering : Renumbering) : MatchResult → MatchResult → Prop where
  | complete (consumed : Nat) :
      PairsMatch numbering (.complete consumed) (.complete consumed)
  | mismatch (index : Nat) {left right : Token} {leftExpected rightExpected : TokenType}
      (found : numbering.PairsToken left right)
      (expected : numbering.Pairs leftExpected rightExpected) :
      PairsMatch numbering (.mismatch index left leftExpected)
        (.mismatch index right rightExpected)
  | endless : PairsMatch numbering .endless .endless

abbrev PairsSlots (numbering : Renumbering) : List Slot → List Slot → Prop :=
  List.Forall₂ numbering.PairsSlot

abbrev PairsTokens (numbering : Renumbering) : List Token → List Token → Prop :=
  List.Forall₂ numbering.PairsToken

structure PairsStream (numbering : Renumbering) (left right : TokenStream) : Prop where
  body : numbering.PairsTokens left.body right.body
  last : numbering.PairsToken left.last right.last

def PairsDecision (numbering : Renumbering) (left right : Decision) : Prop :=
  List.Forall₂ numbering.PairsSlots left.alternatives right.alternatives

variable {numbering : Renumbering}

/-! ### Configurations -/

theorem PairsSlot.canLeave_eq {left right : Slot} (paired : numbering.PairsSlot left right)
    (looping : Bool) : left.canLeave looping = right.canLeave looping := by
  unfold Slot.canLeave
  rw [paired.repetition]

theorem reach_eq {left right : List Slot} (paired : numbering.PairsSlots left right)
    (alternative position : Nat) (looping : Bool) :
    Decision.reach alternative position looping left =
      Decision.reach alternative position looping right := by
  induction paired generalizing position looping with
  | nil => rfl
  | cons here _ ih =>
      rw [Decision.reach, Decision.reach, here.canLeave_eq, ih]

theorem pairsSlots_getD {left right : List (List Slot)}
    (paired : List.Forall₂ numbering.PairsSlots left right) (alternative : Nat) :
    numbering.PairsSlots ((left[alternative]?).getD []) ((right[alternative]?).getD []) := by
  induction paired generalizing alternative with
  | nil => exact List.Forall₂.nil
  | cons here _ ih =>
      cases alternative with
      | zero => exact here
      | succ later => exact ih later

namespace PairsDecision

variable {left right : Decision} (paired : numbering.PairsDecision left right)

include paired

theorem slots (alternative : Nat) :
    numbering.PairsSlots (left.slots alternative) (right.slots alternative) :=
  pairsSlots_getD paired alternative

theorem ahead (config : Config) :
    numbering.PairsSlots (left.ahead config) (right.ahead config) :=
  List.forall₂_drop config.position (paired.slots config.alternative)

theorem closure_eq (config : Config) : left.closure config = right.closure config :=
  reach_eq (paired.ahead config) _ _ _

theorem start_eq : left.start = right.start := by
  unfold Decision.start
  rw [paired.length_eq, funext paired.closure_eq]

/-- Whether a slot matches a token is a matter of equal types, which pairing keeps. -/
theorem move?_eq {type other : TokenType} (types : numbering.Pairs type other)
    (config : Config) : left.move? type config = right.move? other config := by
  have ahead := paired.ahead config
  unfold Decision.move?
  generalize left.ahead config = leftAhead at ahead ⊢
  generalize right.ahead config = rightAhead at ahead ⊢
  cases ahead with
  | nil => rfl
  | cons here _ =>
      simp only [numbering.unique here.type types, here.repetition]

theorem step_eq {type other : TokenType} (types : numbering.Pairs type other)
    (configs : List Config) : left.step configs type = right.step configs other := by
  unfold Decision.step
  rw [funext (paired.move?_eq types), funext paired.closure_eq]

theorem isComplete_eq (config : Config) : left.isComplete config = right.isComplete config := by
  unfold Decision.isComplete
  rw [(paired.slots config.alternative).length_eq]

/-! ### Prediction -/

/-- Token after token, prediction is at the same configurations or has come to the same end. -/
theorem predictFrom {leftTokens rightTokens : List Token}
    (tokens : numbering.PairsTokens leftTokens rightTokens) (configs : List Config)
    {last otherLast : Token} (ends : numbering.PairsToken last otherLast) :
    numbering.PairsPrediction (left.predictFrom configs last leftTokens)
      (right.predictFrom configs otherLast rightTokens) := by
  induction tokens generalizing configs last otherLast with
  | nil =>
      rw [Decision.predictFrom, Decision.predictFrom]
      cases Decision.lowest? configs with
      | none => exact PairsPrediction.error ends
      | some alternative => exact PairsPrediction.ok alternative
  | cons token _ ih =>
      rw [Decision.predictFrom, Decision.predictFrom]
      cases Decision.sole? configs with
      | some alternative => exact PairsPrediction.ok alternative
      | none =>
          simp only [paired.step_eq token.type, funext paired.isComplete_eq]
          split
          · cases Decision.lowest? (configs.filter right.isComplete) with
            | none => exact PairsPrediction.error token
            | some alternative => exact PairsPrediction.ok alternative
          · exact ih _ token

theorem predict {leftStream rightStream : TokenStream}
    (streams : numbering.PairsStream leftStream rightStream) :
    numbering.PairsPrediction (left.predict leftStream.tokens)
      (right.predict rightStream.tokens) := by
  have tokens : numbering.PairsTokens leftStream.tokens rightStream.tokens :=
    List.rel_append streams.body (List.Forall₂.cons streams.last List.Forall₂.nil)
  unfold Decision.predict
  rw [paired.start_eq]
  exact paired.predictFrom tokens right.start ⟨numbering.ends, rfl, rfl⟩

end PairsDecision

/-! ### Matching -/

theorem PairsTokens.current {left right : List Token}
    (paired : numbering.PairsTokens left right) {last otherLast : Token}
    (ends : numbering.PairsToken last otherLast) :
    numbering.PairsToken (left.head?.getD last) (right.head?.getD otherLast) := by
  cases paired with
  | nil => exact ends
  | cons here _ => exact here

theorem PairsTokens.isEmpty_eq {left right : List Token}
    (paired : numbering.PairsTokens left right) : left.isEmpty = right.isEmpty := by
  cases paired with
  | nil => rfl
  | cons _ _ => rfl

theorem PairsTokens.length_takeWhile_eq {left right : List Token}
    (paired : numbering.PairsTokens left right) {type other : TokenType}
    (types : numbering.Pairs type other) :
    (left.takeWhile (fun token => token.type = type)).length =
      (right.takeWhile (fun token => token.type = other)).length := by
  induction paired with
  | nil => rfl
  | cons here _ ih =>
      have asked := numbering.unique here.type types
      simp only [List.takeWhile_cons, asked]
      split
      · rw [List.length_cons, List.length_cons, ih]
      · rfl

/-- Slot after slot, as many tokens are taken on both sides, or both stop here. -/
theorem matchFrom {leftSlots rightSlots : List Slot}
    (slots : numbering.PairsSlots leftSlots rightSlots) {leftTokens rightTokens : List Token}
    (tokens : numbering.PairsTokens leftTokens rightTokens) (index : Nat)
    {last otherLast : Token} (ends : numbering.PairsToken last otherLast) :
    numbering.PairsMatch (Decision.matchFrom last leftSlots index leftTokens)
      (Decision.matchFrom otherLast rightSlots index rightTokens) := by
  induction slots generalizing leftTokens rightTokens index with
  | nil => exact PairsMatch.complete index
  | @cons slot other _ _ here _ ih =>
      -- Both sides ask whether the token here matches and whether the end would be taken.
      have current := PairsTokens.current tokens ends
      have asked := numbering.unique current.type here.type
      have atEnd := numbering.unique ends.type here.type
      have taken := PairsTokens.length_takeWhile_eq tokens here.type
      have left := List.forall₂_drop
        (rightTokens.takeWhile (fun token => token.type = other.type)).length tokens
      rw [Decision.matchFrom, Decision.matchFrom]
      simp only [here.repetition, taken, PairsTokens.isEmpty_eq left, ne_eq, asked, atEnd]
      split
      · exact PairsMatch.mismatch index current here.type
      · split
        · split
          · exact PairsMatch.endless
          · exact ih left _
        · exact ih (List.forall₂_drop 1 tokens) _

theorem matchSlots {leftSlots rightSlots : List Slot}
    (slots : numbering.PairsSlots leftSlots rightSlots) {leftStream rightStream : TokenStream}
    (streams : numbering.PairsStream leftStream rightStream) :
    numbering.PairsMatch (Decision.matchSlots leftSlots leftStream)
      (Decision.matchSlots rightSlots rightStream) :=
  matchFrom slots streams.body 0 streams.last

end Renumbering

end LiteralGrammar
