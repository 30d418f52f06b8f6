/-
Recognition before and after a grammar is prepared.

A name stands for the same alternatives in a grammar and in its bare one, and
the vocabularies are equal.  Lexing, recognition and the literals of a session
look at nothing else.  So no preparation can be observed through them.
-/

import LiteralGrammar.Grammar.Draft
import LiteralGrammar.Proofs.Grammar.Preparation
import LiteralGrammar.Recognizer

namespace LiteralGrammar

namespace Grammar

/-- Recognition uses the alternatives of the rule that a name stands for, not its exceptions. -/
theorem parse_bare (grammar : Grammar) (lexer : Lexer) (name input : String) :
    Recognizer.parse { grammar := grammar.bare, lexer := lexer } name input =
      Recognizer.parse { grammar := grammar, lexer := lexer } name input := by
  unfold Recognizer.parse
  simp only [resolveRule?_bare, vocabulary_bare]
  cases grammar.resolveRule? name with
  | none => rfl
  | some rule => rfl

/-- Two grammars that are the same to whoever recognizes, cuts an input or asks a session for
literals; where no lexer can be made of one, the other has the same fault. -/
structure ReadAlike (left right : Grammar) : Prop where
  parse (name input : String) :
    (Recognizer.ofGrammar left).map (fun recognizer => recognizer.parse name input) =
      (Recognizer.ofGrammar right).map (fun recognizer => recognizer.parse name input)
  tokenize (input : String) :
    (Lexer.ofVocabulary left.vocabulary).map (fun lexer => lexer.tokenize input) =
      (Lexer.ofVocabulary right.vocabulary).map (fun lexer => lexer.tokenize input)
  tokenLiterals (session : Session) : session.tokenLiterals left = session.tokenLiterals right

theorem readAlike_bare (grammar : Grammar) : ReadAlike grammar.bare grammar := by
  constructor
  · intro name input
    unfold Recognizer.ofGrammar
    rw [vocabulary_bare]
    cases Lexer.ofVocabulary grammar.vocabulary with
    | error fault => rfl
    | ok lexer => exact congrArg Except.ok (parse_bare grammar lexer name input)
  · intro input
    rw [vocabulary_bare]
  · intro session
    unfold Session.tokenLiterals
    rw [vocabulary_bare]

theorem readAlike_of_bare_eq {left right : Grammar} (same : left.bare = right.bare) :
    ReadAlike left right := by
  have leftBare := readAlike_bare left
  have rightBare := readAlike_bare right
  rw [same] at leftBare
  exact ⟨fun name input => (leftBare.parse name input).symm.trans (rightBare.parse name input),
    fun input => (leftBare.tokenize input).symm.trans (rightBare.tokenize input),
    fun session => (leftBare.tokenLiterals session).symm.trans (rightBare.tokenLiterals session)⟩

/-- However often and in whatever order a grammar is prepared, it is read like before. -/
theorem readAlike_of_prepared {grammar changed : Grammar}
    (prepared : Relation.ReflTransGen Prepares grammar changed) : ReadAlike changed grammar :=
  readAlike_of_bare_eq (bare_eq_of_prepared prepared)

private def importer : GrammarDraft :=
  { name := "Importer"
    kind := .combined
    tokens := []
    rules := [{ name := "run", alternatives := [[("'a'", .oneOrMore)]], exceptions := [] }]
    delegates :=
      [{ name := "Imported"
         kind := .parser
         tokens := ["ID"]
         rules :=
           [{ name := "run", alternatives := [[("'b'", .once)]], exceptions := [] },
            { name := "walk", alternatives := [[("'a'", .once)], []], exceptions := [] }]
         delegates := [] }] }

theorem readAlike_of_prepared_declared :
    ∃ grammar changed, importer.build = .ok grammar ∧
      Relation.ReflTransGen Prepares grammar changed ∧
      changed.flatten.map (fun rule => rule.exceptions.names) =
        [["IOException", "RecognitionException"], [], ["RecognitionException"]] ∧
      ReadAlike changed grammar := by
  obtain ⟨grammar, changed, made, declared, exceptions⟩ :
      ∃ grammar changed, importer.build = .ok grammar ∧
        (Target.apex.adjust grammar).requireAt? 0 "IOException" = some (true, changed) ∧
        changed.flatten.map (fun rule => rule.exceptions.names) =
          [["IOException", "RecognitionException"], [], ["RecognitionException"]] :=
    ⟨_, _, rfl, rfl, rfl⟩
  have prepared : Relation.ReflTransGen Prepares grammar changed :=
    (Relation.ReflTransGen.single (Prepares.adjust .apex grammar)).tail (.declareAt declared)
  exact ⟨grammar, changed, made, prepared, exceptions, readAlike_of_prepared prepared⟩

end Grammar

end LiteralGrammar
