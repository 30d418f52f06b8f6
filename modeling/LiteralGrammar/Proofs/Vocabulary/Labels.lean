/-
Labels of token types in generated code.

A label is the name of a token, the name that is built in for the end of the
input, or a number.  Names tell their types apart because a vocabulary numbers
each name once, and numbers because numerals do; what is left is that no name of
a token reads like one of the other two.
-/

import LiteralGrammar.Proofs.Grammar.Assembly
import LiteralGrammar.Proofs.Vocabulary.History
import LiteralGrammar.Target.Rendering
import Mathlib

namespace LiteralGrammar

/-! ### Numerals -/

theorem isDigit_or_minus_of_mem_repr {number : Int} {character : Char}
    (member : character ∈ number.repr.toList) : character.isDigit = true ∨ character = '-' := by
  have digit (value : Nat) (inside : character ∈ value.repr.toList) :
      character.isDigit = true := by
    rw [Nat.toList_repr] at inside
    exact Nat.isDigit_of_mem_toDigits (by decide) (by decide) inside
  rw [Int.repr_eq_if] at member
  split at member
  · exact Or.inl (digit _ member)
  · rw [String.toList_append, List.mem_append] at member
    rcases member with sign | inside
    · exact Or.inr (List.mem_singleton.mp sign)
    · exact Or.inl (digit _ inside)

/-- A text with a character that no numeral has is not a numeral. -/
theorem repr_ne_of_any {text : String}
    (foreign : text.toList.any (fun character =>
      !character.isDigit && character ≠ '-') = true) (number : Int) : number.repr ≠ text := by
  intro same
  obtain ⟨character, member, strange⟩ := List.any_eq_true.mp foreign
  rw [← same] at member
  rcases isDigit_or_minus_of_mem_repr member with digit | minus
  · simp [digit] at strange
  · simp [minus] at strange

theorem TokenType.display_injective {left right : TokenType}
    (same : left.display = right.display) : left = right := by
  have raws : left.raw = right.raw := Int32.toInt_inj.mp (Int.repr_inj.mp same)
  cases left
  cases raws
  rfl

namespace Vocabulary

/-! ### Where labels come from -/

/-- A label is the built-in name of the end of the input, a name that has the type, or the number
of the type. -/
theorem WellFormed.label_cases {vocabulary : Vocabulary} (formed : vocabulary.WellFormed)
    (type : TokenType) :
    (type = TokenType.endOfInput ∧ vocabulary.label type = "EOF") ∨
      vocabulary.tokenType? (vocabulary.label type) = some type ∨
      vocabulary.label type = type.display := by
  by_cases atEnd : type = TokenType.endOfInput
  · refine Or.inl ⟨atEnd, ?_⟩
    rw [atEnd]
    rfl
  · unfold label
    cases shown : vocabulary.displayName? type with
    | none => exact Or.inr (Or.inr rfl)
    | some name =>
        by_cases literal : Literal.opensAsLiteral name = true
        · simp only [if_pos literal, or_true]
        · simp only [if_neg literal]
          exact Or.inr (Or.inl ((formed.tokenType?_eq_some_iff_displayName? atEnd).mpr shown))

/-- Names that neither the end of the input nor a number can be taken for. -/
structure NamesApart (vocabulary : Vocabulary) : Prop where
  eof : "EOF" ∉ vocabulary.names
  numbers : ∀ number : Int, number.repr ∉ vocabulary.names

theorem NamesApart.ne_eof {vocabulary : Vocabulary} (apart : vocabulary.NamesApart)
    (formed : vocabulary.WellFormed) {name : String} {type : TokenType}
    (known : vocabulary.tokenType? name = some type) : name ≠ "EOF" := by
  intro same
  rw [same] at known
  exact apart.eof ((formed.mem_names_iff _).mpr ⟨type, known⟩)

theorem NamesApart.ne_display {vocabulary : Vocabulary} (apart : vocabulary.NamesApart)
    (formed : vocabulary.WellFormed) {name : String} {type : TokenType}
    (known : vocabulary.tokenType? name = some type) (number : TokenType) :
    name ≠ number.display := by
  intro same
  rw [same] at known
  exact apart.numbers number.raw.toInt ((formed.mem_names_iff _).mpr ⟨type, known⟩)

/-- Labels of different origins differ, and those of one origin tell their types apart. -/
theorem WellFormed.label_injective {vocabulary : Vocabulary} (formed : vocabulary.WellFormed)
    (apart : vocabulary.NamesApart) : Function.Injective vocabulary.label := by
  intro left right same
  rcases formed.label_cases left with ⟨leftEnd, leftLabel⟩ | leftKnown | leftLabel
  · rcases formed.label_cases right with ⟨rightEnd, _⟩ | rightKnown | rightLabel
    · rw [leftEnd, rightEnd]
    · exact absurd (same.symm.trans leftLabel) (apart.ne_eof formed rightKnown)
    · exact absurd (rightLabel.symm.trans (same.symm.trans leftLabel)) (repr_ne_of_any (by decide) _)
  · rcases formed.label_cases right with ⟨_, rightLabel⟩ | rightKnown | rightLabel
    · exact absurd (same.trans rightLabel) (apart.ne_eof formed leftKnown)
    · rw [same, rightKnown] at leftKnown
      exact (Option.some.inj leftKnown).symm
    · exact absurd (same.trans rightLabel) (apart.ne_display formed leftKnown right)
  · rcases formed.label_cases right with ⟨_, rightLabel⟩ | rightKnown | rightLabel
    · exact absurd (leftLabel.symm.trans (same.trans rightLabel)) (repr_ne_of_any (by decide) _)
    · exact absurd (same.symm.trans leftLabel) (apart.ne_display formed rightKnown left)
    · exact TokenType.display_injective (leftLabel.symm.trans (same.trans rightLabel))

end Vocabulary

/-- In generated code no two token types are called the same, whatever they stand for, unless the
grammar has a token of the name `EOF` or of a name that is a number. -/
theorem Target.tokenLabel_injective {grammar : Grammar} (assembled : grammar.Assembled)
    (apart : grammar.vocabulary.NamesApart) (target : Target) :
    Function.Injective (target.tokenLabel grammar) :=
  assembled.wellFormed.label_injective apart

private def sharedTokens : GrammarDraft :=
  { name := "Shared"
    kind := .lexer
    tokens := ["ID", "4a", "'-1'"]
    rules := [{ name := "item", alternatives := [[("'7'", .once)]], exceptions := [] }]
    delegates := [] }

private def labelled : GrammarDraft :=
  { name := "Labelled"
    kind := .combined
    tokens := ["EOF2", "ID"]
    rules := []
    delegates := [sharedTokens] }

/-- Literals of numbers and names that only begin like the end of the input or a number. -/
theorem Target.tokenLabel_injective_labelled :
    ∃ grammar : Grammar, grammar.Assembled ∧ grammar.vocabulary.NamesApart ∧
      grammar.vocabulary.names = ["EOF2", "ID", "4a", "'-1'", "'7'"] ∧
      ∀ target : Target, Function.Injective (target.tokenLabel grammar) := by
  obtain ⟨grammar, made, names⟩ : ∃ grammar, labelled.build = .ok grammar ∧
      grammar.vocabulary.names = ["EOF2", "ID", "4a", "'-1'", "'7'"] :=
    ⟨_, rfl, rfl⟩
  have assembled := (GrammarDraft.built_of_build labelled made).assembled
  have apart : grammar.vocabulary.NamesApart := by
    constructor
    · rw [names]
      decide
    · intro number member
      rw [names] at member
      have foreign : ∀ name ∈ ["EOF2", "ID", "4a", "'-1'", "'7'"],
          name.toList.any (fun character =>
            !character.isDigit && character ≠ '-') = true := by decide
      exact repr_ne_of_any (foreign _ member) number rfl
  exact ⟨grammar, assembled, apart, names, Target.tokenLabel_injective assembled apart⟩

end LiteralGrammar
