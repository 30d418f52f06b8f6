/-
Lexers of vocabularies that agree on an input.

Two vocabularies agree on an input when the literals that occur in it are the
same and stand for different texts.  What a lexer takes at some place is the
longest text that occurs there; so the lexers of both take the same texts, and
the literal of a text is the same, whatever types the vocabularies have given
it and whatever other literals they know.
-/

import LiteralGrammar.Proofs.Decision.Renumbering
import LiteralGrammar.Proofs.Token.Reading

namespace LiteralGrammar

theorem Literal.Denotes.unique {literal : String} {left right : List Char}
    (denotes : Denotes literal left) (denotesToo : Denotes literal right) : left = right := by
  unfold Denotes at denotes denotesToo
  rw [denotes] at denotesToo
  exact String.ofList_inj.mp (Except.ok.inj denotesToo)

namespace Vocabulary

/-- A literal of the vocabulary that stands for some characters, which occur in the input. -/
def Occurs (vocabulary : Vocabulary) (input : List Char) (name : String) : Prop :=
  (∃ type, (type, name) ∈ vocabulary.literals) ∧
    ∃ value, Literal.Denotes name value ∧ value ≠ [] ∧ value <:+: input

/-- The literals that occur in the input are the same, and each stands for a text of its own. -/
structure Agree (left right : Vocabulary) (input : List Char) : Prop where
  same (name : String) : left.Occurs input name ↔ right.Occurs input name
  apart {name other : String} {value : List Char} (occurs : left.Occurs input name)
    (otherOccurs : left.Occurs input other) (denotes : Literal.Denotes name value)
    (otherDenotes : Literal.Denotes other value) : name = other

theorem Agree.symm {left right : Vocabulary} {input : List Char} (agree : left.Agree right input) :
    right.Agree left input :=
  ⟨fun name => (agree.same name).symm, fun occurs otherOccurs =>
    agree.apart ((agree.same _).mpr occurs) ((agree.same _).mpr otherOccurs)⟩

/-! ### Types of one name -/

/-- Types of the same name belong together. -/
def renumbering {left right : Vocabulary} (leftFormed : left.WellFormed)
    (rightFormed : right.WellFormed) : Renumbering where
  Pairs type other :=
    (type = TokenType.endOfInput ∧ other = TokenType.endOfInput) ∨
      ∃ name, left.tokenType? name = some type ∧ right.tokenType? name = some other
  ends := Or.inl ⟨rfl, rfl⟩
  unique := by
    rintro type other otherType otherOther (⟨atEnd, atEndToo⟩ | ⟨name, known, knownToo⟩)
      (⟨otherAtEnd, otherAtEndToo⟩ | ⟨otherName, otherKnown, otherKnownToo⟩)
    · rw [atEnd, atEndToo, otherAtEnd, otherAtEndToo]
    · rw [atEnd, atEndToo]
      exact iff_of_false (leftFormed.type_ne_endOfInput otherKnown).symm
        (rightFormed.type_ne_endOfInput otherKnownToo).symm
    · rw [otherAtEnd, otherAtEndToo]
      exact iff_of_false (leftFormed.type_ne_endOfInput known)
        (rightFormed.type_ne_endOfInput knownToo)
    · rw [leftFormed.type_eq_iff known otherKnown, rightFormed.type_eq_iff knownToo otherKnownToo]

theorem displayName?_of_pairs {left right : Vocabulary} (leftFormed : left.WellFormed)
    (rightFormed : right.WellFormed) {type other : TokenType}
    (paired : (renumbering leftFormed rightFormed).Pairs type other) :
    left.displayName? type = right.displayName? other := by
  rcases paired with ⟨rfl, rfl⟩ | ⟨name, known, knownToo⟩
  · rfl
  · rw [leftFormed.displayName?_eq known, rightFormed.displayName?_eq knownToo]

end Vocabulary

namespace Renumbering

inductive PairsPiece (numbering : Renumbering) : Piece → Piece → Prop where
  | token {type other : TokenType} (types : numbering.Pairs type other) (text : List Char) :
      PairsPiece numbering (.token type text) (.token other text)
  | stray (character : Char) : PairsPiece numbering (.stray character) (.stray character)

structure PairsScan (numbering : Renumbering) (left right : Scan) : Prop where
  stream : numbering.PairsStream left.stream right.stream
  diagnostics : left.diagnostics = right.diagnostics

variable {numbering : Renumbering}

/-- Paired pieces have the same texts, so they are given the same places. -/
theorem pairs_locate {left right : List Piece}
    (paired : List.Forall₂ numbering.PairsPiece left right) (position : Position) :
    numbering.PairsScan (Lexer.locate position left) (Lexer.locate position right) := by
  induction paired generalizing position with
  | nil => exact ⟨⟨List.Forall₂.nil, numbering.ends, rfl, rfl⟩, rfl⟩
  | cons here _ ih =>
      cases here with
      | token types text =>
          have later := ih (position.advance text)
          exact ⟨⟨List.Forall₂.cons ⟨types, rfl, rfl⟩ later.stream.body, later.stream.last⟩,
            later.diagnostics⟩
      | stray character =>
          have later := ih (position.advance [character])
          exact ⟨later.stream, congrArg (_ :: ·) later.diagnostics⟩

end Renumbering

namespace Lexer

/-! ### The longest literal -/

/-- A lexer for a vocabulary that was numbered as it grew. -/
structure Serves (lexer : Lexer) (vocabulary : Vocabulary) : Prop where
  formed : vocabulary.WellFormed
  made : ofVocabulary vocabulary = .ok lexer

namespace Serves

variable {vocabulary : Vocabulary} {lexer : Lexer} (serves : lexer.Serves vocabulary)

include serves

theorem exists_occurs {input value : List Char} {type : TokenType}
    (member : (type, value) ∈ lexer.literals) (inside : value <:+: input) :
    ∃ name, vocabulary.tokenType? name = some type ∧ Literal.Denotes name value ∧
      vocabulary.Occurs input name := by
  obtain ⟨visible, name, text, known, read, same⟩ :=
    (mem_literals_iff serves.formed serves.made _ _).mp member
  have denotes : Literal.Denotes name value := by
    unfold Literal.Denotes
    rw [read, same, String.ofList_toList]
  exact ⟨name, known, denotes,
    ⟨type, (serves.formed.mem_literals_iff _ _).mpr
      ⟨known, Literal.opensAsLiteral_of_decode read⟩⟩,
    value, denotes, visible, inside⟩

theorem exists_mem {input value : List Char} {name : String}
    (occurs : vocabulary.Occurs input name) (denotes : Literal.Denotes name value) :
    ∃ type, vocabulary.tokenType? name = some type ∧ (type, value) ∈ lexer.literals := by
  obtain ⟨⟨type, member⟩, other, otherDenotes, visible, _⟩ := occurs
  rw [otherDenotes.unique denotes] at visible
  exact ⟨type, ((serves.formed.mem_literals_iff _ _).mp member).1,
    mem_literals_of_denotes serves.made member denotes visible⟩

end Serves

section Pair

variable {left right : Vocabulary} {leftLexer rightLexer : Lexer}
  (leftServes : leftLexer.Serves left) (rightServes : rightLexer.Serves right)
  {input : List Char} (agree : left.Agree right input)

include leftServes rightServes agree

/-- Where one lexer takes a text, the other takes one that is no shorter. -/
theorem exists_longestMatch?_ge {rest text : List Char} (within : rest <:+ input)
    {type : TokenType} (found : leftLexer.longestMatch? rest = some (type, text)) :
    ∃ other otherText, rightLexer.longestMatch? rest = some (other, otherText) ∧
      text.length ≤ otherText.length := by
  have longest := longest_of_longestMatch? found
  have member := longest.mem
  obtain ⟨_, _, _, fits, _, _⟩ := longest
  obtain ⟨name, _, denotes, occurs⟩ :=
    leftServes.exists_occurs member (fits.isInfix.trans within.isInfix)
  obtain ⟨other, _, otherMember⟩ :=
    rightServes.exists_mem ((agree.same name).mp occurs) denotes
  cases otherFound : rightLexer.longestMatch? rest with
  | none => exact absurd fits (no_literal_of_longestMatch? otherFound _ otherMember)
  | some literal =>
      obtain ⟨_, _, _, _, bound, _⟩ := longest_of_longestMatch? otherFound
      exact ⟨literal.1, literal.2, rfl, bound _ otherMember fits⟩

/-- Both lexers take the same text, as the one literal that stands for it. -/
theorem longestMatch?_of_agree {rest text : List Char} (within : rest <:+ input)
    {type : TokenType} (found : leftLexer.longestMatch? rest = some (type, text)) :
    ∃ other, rightLexer.longestMatch? rest = some (other, text) ∧
      (Vocabulary.renumbering leftServes.formed rightServes.formed).Pairs type other := by
  obtain ⟨other, otherText, otherFound, atLeast⟩ :=
    exists_longestMatch?_ge leftServes rightServes agree within found
  obtain ⟨again, againText, foundAgain, atMost⟩ :=
    exists_longestMatch?_ge rightServes leftServes agree.symm within otherFound
  rw [found] at foundAgain
  cases foundAgain
  have longest := longest_of_longestMatch? found
  have otherLongest := longest_of_longestMatch? otherFound
  have member := longest.mem
  have otherMember := otherLongest.mem
  obtain ⟨_, _, _, fits, _, _⟩ := longest
  obtain ⟨_, _, _, otherFits, _, _⟩ := otherLongest
  -- Both are prefixes of the rest, and neither is shorter than the other.
  have sameText : text = otherText :=
    (List.prefix_of_prefix_length_le fits otherFits atLeast).eq_of_length
      (Nat.le_antisymm atLeast atMost)
  subst sameText
  have inside := fits.isInfix.trans within.isInfix
  obtain ⟨name, known, denotes, occurs⟩ := leftServes.exists_occurs member inside
  obtain ⟨otherName, otherKnown, otherDenotes, otherOccurs⟩ :=
    rightServes.exists_occurs otherMember inside
  have sameName :=
    agree.apart occurs ((agree.same otherName).mpr otherOccurs) denotes otherDenotes
  exact ⟨other, otherFound, Or.inr ⟨name, known, sameName ▸ otherKnown⟩⟩

theorem longestMatch?_eq_none_of_agree {rest : List Char} (within : rest <:+ input)
    (missing : leftLexer.longestMatch? rest = none) : rightLexer.longestMatch? rest = none := by
  cases found : rightLexer.longestMatch? rest with
  | none => rfl
  | some literal =>
      obtain ⟨_, impossible, _⟩ :=
        longestMatch?_of_agree rightServes leftServes agree.symm within found
      rw [missing] at impossible
      cases impossible

/-! ### Pieces and places -/

/-- Both lexers skip the same characters, so they stay at the same place of the input. -/
theorem pairs_piecesAfter (skipped : Nat) {rest : List Char} (within : rest <:+ input) :
    List.Forall₂ (Vocabulary.renumbering leftServes.formed rightServes.formed).PairsPiece
      (leftLexer.piecesAfter skipped rest) (rightLexer.piecesAfter skipped rest) := by
  induction rest generalizing skipped with
  | nil =>
      rw [piecesAfter, piecesAfter]
      exact List.Forall₂.nil
  | cons head tail ih =>
      have later := (List.suffix_cons head tail).trans within
      cases skipped with
      | succ skipped => exact ih skipped later
      | zero =>
          rw [piecesAfter, piecesAfter]
          cases found : leftLexer.longestMatch? (head :: tail) with
          | none =>
              rw [longestMatch?_eq_none_of_agree leftServes rightServes agree within found]
              exact List.Forall₂.cons (Renumbering.PairsPiece.stray head) (ih 0 later)
          | some literal =>
              obtain ⟨other, otherFound, types⟩ :=
                longestMatch?_of_agree leftServes rightServes agree within found
              rw [otherFound]
              exact List.Forall₂.cons (Renumbering.PairsPiece.token types literal.2)
                (ih (literal.2.length - 1) later)

theorem pairs_pieces :
    List.Forall₂ (Vocabulary.renumbering leftServes.formed rightServes.formed).PairsPiece
      (leftLexer.pieces input) (rightLexer.pieces input) :=
  pairs_piecesAfter leftServes rightServes agree 0 List.suffix_rfl

end Pair

end Lexer

end LiteralGrammar
