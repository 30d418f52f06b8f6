/-
Streams of tokens that a lexer makes from the literals of a vocabulary.

A token shows one of the lexer's literals.  When nothing is reported, the texts
of the tokens are the whole input; and a sequence of values that tell their
literals apart is read back as these literals.
-/

import LiteralGrammar.Proofs.Decision.Places
import LiteralGrammar.Proofs.Fault
import LiteralGrammar.Proofs.Token.LongestMatch
import LiteralGrammar.Proofs.Vocabulary.Numbering

namespace LiteralGrammar

/-- The literal that a token shows. -/
def Token.shownLiteral (token : Token) : TokenType × List Char :=
  (token.type, token.text.toList)

/-- The literal that a piece is a token of, if it is one. -/
def Piece.literal? : Piece → Option (TokenType × List Char)
  | token type text => some (type, text)
  | stray _ => none

/-- The literals that pieces are tokens of, in order. -/
def Piece.literals (pieces : List Piece) : List (TokenType × List Char) :=
  pieces.filterMap literal?

@[simp] theorem Piece.literals_token (type : TokenType) (text : List Char) (rest : List Piece) :
    literals (.token type text :: rest) = (type, text) :: literals rest := rfl

@[simp] theorem Piece.literals_stray (character : Char) (rest : List Piece) :
    literals (.stray character :: rest) = literals rest := rfl

/-- Only what is written as a literal can be decoded. -/
theorem Literal.opensAsLiteral_of_decode {name text : String}
    (read : Literal.decode name = .ok text) : Literal.opensAsLiteral name = true := by
  rcases map_eq_ok_iff.mp read with ⟨found, cut, _⟩
  unfold Literal.glyphs at cut
  split at cut
  · cases cut
  · rename_i body inside
    have delimited := (Literal.interior?_eq_some_iff _ _).mp inside
    unfold Literal.opensAsLiteral
    rw [delimited]
    rfl

namespace Lexer

/-! ### From pieces to tokens -/

theorem locate_shownLiterals (position : Position) (pieces : List Piece) :
    (locate position pieces).stream.body.map Token.shownLiteral =
      Piece.literals pieces := by
  induction pieces generalizing position with
  | nil => rfl
  | cons piece rest ih =>
      have later := ih (position.advance piece.text)
      cases piece with
      | token type text =>
          rw [Piece.literals_token, ← later, locate]
          simp only [List.map_cons, Token.shownLiteral, String.toList_ofList]
      | stray character =>
          rw [Piece.literals_stray, ← later, locate]

theorem locate_last (position : Position) (pieces : List Piece) :
    (locate position pieces).stream.last =
      Token.endOfInput (position.advance (pieces.flatMap Piece.text)) := by
  induction pieces generalizing position with
  | nil => rfl
  | cons piece rest ih =>
      rw [List.flatMap_cons, Position.advance_append]
      cases piece with
      | token type text => exact ih _
      | stray character => exact ih _

/-- Only characters are reported. -/
theorem locate_diagnostics (position : Position) (pieces : List Piece) :
    ∀ diagnostic ∈ (locate position pieces).diagnostics, ∃ character place,
      diagnostic = Diagnostic.noViableCharacter character place := by
  induction pieces generalizing position with
  | nil => exact List.forall_mem_nil _
  | cons piece rest ih =>
      cases piece with
      | token type text => exact ih _
      | stray character => exact List.forall_mem_cons.mpr ⟨⟨_, _, rfl⟩, ih _⟩

/-- Nothing is reported exactly when every piece is a token. -/
theorem locate_diagnostics_eq_nil_iff (position : Position) (pieces : List Piece) :
    (locate position pieces).diagnostics = [] ↔
      ∀ piece ∈ pieces, ∃ literal, piece.literal? = some literal := by
  induction pieces generalizing position with
  | nil => simp [locate]
  | cons piece rest ih =>
      rw [List.forall_mem_cons]
      cases piece with
      | token type text =>
          refine (ih (position.advance text)).trans (and_iff_right ?_).symm
          exact ⟨(type, text), rfl⟩
      | stray character =>
          constructor
          · intro impossible
            cases impossible
          · intro ⟨⟨literal, impossible⟩, _⟩
            cases impossible

theorem flatMap_text_eq {pieces : List Piece}
    (tokens : ∀ piece ∈ pieces, ∃ literal, piece.literal? = some literal) :
    (Piece.literals pieces).flatMap Prod.snd = pieces.flatMap Piece.text := by
  induction pieces with
  | nil => rfl
  | cons piece rest ih =>
      rcases List.forall_mem_cons.mp tokens with ⟨⟨literal, found⟩, later⟩
      cases piece with
      | token type text =>
          rw [Piece.literals_token, List.flatMap_cons, List.flatMap_cons, ih later]
          rfl
      | stray character => cases found

/-! ### Streams -/

theorem Segments.literal_mem {lexer : Lexer} {input : List Char} {pieces : List Piece}
    (cut : lexer.Segments input pieces) {literal : TokenType × List Char}
    (member : literal ∈ Piece.literals pieces) : literal ∈ lexer.literals := by
  induction cut with
  | nil => cases member
  | token longest _ ih =>
      rw [Piece.literals_token] at member
      rcases List.mem_cons.mp member with same | later
      · rw [same]
        exact longest.mem
      · exact ih later
  | stray _ _ ih =>
      rw [Piece.literals_stray] at member
      exact ih member

theorem tokenize_shownLiterals (lexer : Lexer) (input : String) :
    (lexer.tokenize input).stream.body.map Token.shownLiteral =
      Piece.literals (lexer.pieces input.toList) :=
  locate_shownLiterals _ _

theorem shownLiteral_mem {lexer : Lexer} (solid : lexer.Solid) {input : String} {token : Token}
    (member : token ∈ (lexer.tokenize input).stream.body) :
    token.shownLiteral ∈ lexer.literals := by
  have shown := List.mem_map_of_mem (f := Token.shownLiteral) member
  rw [tokenize_shownLiterals] at shown
  exact (segments_pieces solid input.toList).literal_mem shown

/-- When nothing is reported the tokens make up the input. -/
theorem flatMap_shownLiteral_of_silent {lexer : Lexer} (solid : lexer.Solid) {input : String}
    (silent : (lexer.tokenize input).diagnostics = []) :
    ((lexer.tokenize input).stream.body.map Token.shownLiteral).flatMap Prod.snd =
      input.toList := by
  have tokens := (locate_diagnostics_eq_nil_iff _ _).mp silent
  rw [tokenize_shownLiterals, flatMap_text_eq tokens, (segments_pieces solid _).texts]

/-- A sequence of values is read back as the literals that they are the values of. -/
theorem tokenize_flatMap {lexer : Lexer} (solid : lexer.Solid) (free : lexer.PrefixFree)
    {literals : List (TokenType × List Char)}
    (known : ∀ literal ∈ literals, literal ∈ lexer.literals) :
    (lexer.tokenize (String.ofList (literals.flatMap Prod.snd))).diagnostics = [] ∧
      (lexer.tokenize (String.ofList (literals.flatMap Prod.snd))).stream.types =
        literals.map Prod.fst := by
  have cut := pieces_flatMap solid free known
  constructor
  · apply (locate_diagnostics_eq_nil_iff _ _).mpr
    rw [String.toList_ofList, cut]
    intro piece member
    rcases List.mem_map.mp member with ⟨literal, _, same⟩
    rw [← same]
    exact ⟨(literal.1, literal.2), rfl⟩
  · have shown := tokenize_shownLiterals lexer (String.ofList (literals.flatMap Prod.snd))
    rw [String.toList_ofList, cut, Piece.literals, List.filterMap_map] at shown
    have types := congrArg (List.map Prod.fst) shown
    rw [List.map_map] at types
    refine types.trans ?_
    congr 1
    exact List.filterMap_some

/-! ### Lexers of vocabularies -/

theorem decodeLiterals_cons_eq_ok_iff {literal : TokenType × String}
    {rest : List (TokenType × String)} {decoded : List (TokenType × List Char)} :
    decodeLiterals (literal :: rest) = .ok decoded ↔
      ∃ value later, Literal.decode literal.2 = .ok value ∧
        decodeLiterals rest = .ok later ∧ decoded = (literal.1, value.toList) :: later := by
  rw [decodeLiterals, bind_eq_ok_iff]
  constructor
  · intro ⟨value, read, followed⟩
    rcases bind_eq_ok_iff.mp followed with ⟨later, others, last⟩
    exact ⟨value, later, read, others, (Except.ok.inj last).symm⟩
  · intro ⟨value, later, read, others, same⟩
    refine ⟨value, read, bind_eq_ok_iff.mpr ⟨later, others, ?_⟩⟩
    rw [same]
    rfl

theorem mem_decodeLiterals_iff {literals : List (TokenType × String)}
    {decoded : List (TokenType × List Char)} (read : decodeLiterals literals = .ok decoded)
    (type : TokenType) (value : List Char) :
    (type, value) ∈ decoded ↔
      ∃ name text, (type, name) ∈ literals ∧ Literal.decode name = .ok text ∧
        value = text.toList := by
  induction literals generalizing decoded with
  | nil =>
      cases read
      simp
  | cons literal rest ih =>
      rcases decodeLiterals_cons_eq_ok_iff.mp read with ⟨first, later, firstRead, others, same⟩
      rw [same, List.mem_cons, ih others]
      constructor
      · intro either
        rcases either with atHead | ⟨name, text, member, textRead, valueSame⟩
        · cases atHead
          exact ⟨literal.2, first, List.mem_cons_self, firstRead, rfl⟩
        · exact ⟨name, text, List.mem_cons_of_mem literal member, textRead, valueSame⟩
      · intro ⟨name, text, member, textRead, valueSame⟩
        rcases List.mem_cons.mp member with atHead | inRest
        · left
          rw [← atHead] at firstRead ⊢
          rw [firstRead] at textRead
          rw [valueSame, Except.ok.inj textRead]
        · exact Or.inr ⟨name, text, inRest, textRead, valueSame⟩

theorem decodeLiterals_exists {literals : List (TokenType × String)}
    (decodes : ∀ literal ∈ literals, ∃ value, Literal.decode literal.2 = .ok value) :
    ∃ decoded, decodeLiterals literals = .ok decoded := by
  induction literals with
  | nil => exact ⟨[], rfl⟩
  | cons literal rest ih =>
      rcases List.forall_mem_cons.mp decodes with ⟨⟨value, read⟩, others⟩
      obtain ⟨later, laterRead⟩ := ih others
      exact ⟨_, decodeLiterals_cons_eq_ok_iff.mpr ⟨value, later, read, laterRead, rfl⟩⟩

theorem decodes_of_decodeLiterals {literals : List (TokenType × String)}
    {decoded : List (TokenType × List Char)} (read : decodeLiterals literals = .ok decoded) :
    ∀ literal ∈ literals, ∃ value, Literal.decode literal.2 = .ok value := by
  induction literals generalizing decoded with
  | nil => exact List.forall_mem_nil _
  | cons literal rest ih =>
      obtain ⟨value, later, valueRead, others, _⟩ := decodeLiterals_cons_eq_ok_iff.mp read
      exact List.forall_mem_cons.mpr ⟨⟨value, valueRead⟩, ih others⟩

theorem ofVocabulary_eq_ok_iff {vocabulary : Vocabulary} {lexer : Lexer} :
    ofVocabulary vocabulary = .ok lexer ↔
      ∃ decoded, decodeLiterals vocabulary.literals = .ok decoded ∧
        lexer.literals = decoded.filter (fun literal => !literal.2.isEmpty) := by
  unfold ofVocabulary
  rw [bind_eq_ok_iff]
  constructor
  · intro ⟨decoded, read, made⟩
    cases made
    exact ⟨decoded, read, rfl⟩
  · intro ⟨decoded, read, same⟩
    refine ⟨decoded, read, ?_⟩
    rw [← same]
    rfl

theorem solid_of_ofVocabulary {vocabulary : Vocabulary} {lexer : Lexer}
    (made : ofVocabulary vocabulary = .ok lexer) : lexer.Solid := by
  rcases ofVocabulary_eq_ok_iff.mp made with ⟨decoded, _, same⟩
  intro literal member empty
  rw [same] at member
  have kept := (List.mem_filter.mp member).2
  rw [empty] at kept
  cases kept

/-- The literals of a lexer are those of the vocabulary that stand for some characters. -/
theorem mem_literals_iff {vocabulary : Vocabulary} {lexer : Lexer}
    (formed : vocabulary.WellFormed) (made : ofVocabulary vocabulary = .ok lexer)
    (type : TokenType) (value : List Char) :
    (type, value) ∈ lexer.literals ↔ value ≠ [] ∧
      ∃ name text, vocabulary.tokenType? name = some type ∧
        Literal.decode name = .ok text ∧ value = text.toList := by
  rcases ofVocabulary_eq_ok_iff.mp made with ⟨decoded, read, same⟩
  rw [same, List.mem_filter, mem_decodeLiterals_iff read, and_comm]
  apply and_congr
  · simp
  · constructor
    · intro ⟨name, text, member, textRead, valueSame⟩
      exact ⟨name, text, ((formed.mem_literals_iff _ _).mp member).1, textRead, valueSame⟩
    · intro ⟨name, text, known, textRead, valueSame⟩
      exact ⟨name, text, (formed.mem_literals_iff _ _).mpr
        ⟨known, Literal.opensAsLiteral_of_decode textRead⟩, textRead, valueSame⟩

/-- The tokens of a stream before the last have types of the vocabulary, so none marks the
end. -/
theorem tokenize_ended {vocabulary : Vocabulary} {lexer : Lexer}
    (formed : vocabulary.WellFormed) (made : ofVocabulary vocabulary = .ok lexer)
    (input : String) : (lexer.tokenize input).stream.Ended := by
  refine ⟨?_, congrArg Token.type (locate_last _ _)⟩
  intro token member same
  have shown := shownLiteral_mem (solid_of_ofVocabulary made) member
  rcases (mem_literals_iff formed made _ _).mp shown with ⟨_, name, _, known, _⟩
  rw [same] at known
  exact formed.tokenType?_ne_endOfInput name known

end Lexer

end LiteralGrammar
