/-
All readers of literals fail on the same ones, and say the same.

Every reader and every renderer comes to the glyphs of a literal before it does
anything that could go wrong, and so do the passes that cut no glyphs.  The lexer
and a session go over the literals of a grammar in one order, so they stop at the
same literal.
-/

import LiteralGrammar.Proofs.Literal.Failing
import LiteralGrammar.Proofs.Target.Passes
import LiteralGrammar.Session
import LiteralGrammar.Token.Lexer

namespace LiteralGrammar

/-! ### One literal -/

namespace Literal

theorem failure?_decode (literal : String) : failure? (decode literal) = fault? literal :=
  (failure?_map _ _).trans (failure?_glyphs literal)

theorem failure?_charValue (literal : String) : failure? (charValue literal) = fault? literal :=
  (failure?_map _ _).trans (failure?_decode literal)

theorem message_of_fault? {literal : String} {fault : Fault} (found : fault? literal = some fault) :
    fault.message = "grammar literal " ++ Text.quoteText literal ++
      if Undelimited literal then " is missing its delimiters"
      else " ends with a dangling escape" := by
  unfold fault? at found
  split at found
  · rename_i undelimited
    cases found
    rw [if_pos undelimited]
    rfl
  · rename_i delimited
    split at found
    · cases found
      rw [if_neg delimited]
      rfl
    · cases found

end Literal

theorem CFamily.failure?_ofLiteral (quote passQuote : Char) (literal : String) :
    failure? (ofLiteral quote passQuote literal) = Literal.fault? literal :=
  (failure?_map _ _).trans (Literal.failure?_glyphs literal)

namespace Target

theorem failure?_grammarLiteral (target : Target) (literal : String) :
    failure? (target.grammarLiteral literal) = Literal.fault? literal := by
  cases target with
  | java => exact CFamily.failure?_ofLiteral _ _ literal
  | apex => exact CFamily.failure?_ofLiteral _ _ literal
  | delphi => exact (failure?_map _ _).trans (Literal.failure?_decode literal)

theorem failure?_charLiteral (target : Target) (literal : String) :
    failure? (target.charLiteral literal) = Literal.fault? literal := by
  have denoted := Literal.failure?_charValue literal
  cases target with
  | java => exact (failure?_map _ _).trans denoted
  | apex => exact (failure?_map _ _).trans denoted
  | delphi => exact (failure?_map _ _).trans denoted

end Target

namespace Literal

/-- What all readers and renderers of one literal have in common.  The two passes, which share no
scanner, agree with the readers in everything else too. -/
structure FailsAlike (literal : String) : Prop where
  interior : failure? (interior literal) =
    if Undelimited literal then some (.missingDelimiters literal) else none
  decode : failure? (decode literal) = fault? literal
  decodePass : decodePass literal = Literal.decode literal
  charValue : failure? (charValue literal) = fault? literal
  ofLiteral (quote passQuote : Char) :
    failure? (CFamily.ofLiteral quote passQuote literal) = fault? literal
  rewritePass (quote passQuote : Char) :
    CFamily.rewritePass quote passQuote literal = CFamily.ofLiteral quote passQuote literal
  grammarLiteral (target : Target) : failure? (target.grammarLiteral literal) = fault? literal
  charLiteral (target : Target) : failure? (target.charLiteral literal) = fault? literal
  message (fault : Fault) : fault? literal = some fault →
    fault.message = "grammar literal " ++ Text.quoteText literal ++
      if Undelimited literal then " is missing its delimiters"
      else " ends with a dangling escape"

theorem failsAlike (literal : String) : FailsAlike literal where
  interior := failure?_interior literal
  decode := failure?_decode literal
  decodePass := decodePass_eq literal
  charValue := failure?_charValue literal
  ofLiteral quote passQuote := CFamily.failure?_ofLiteral quote passQuote literal
  rewritePass quote passQuote := CFamily.rewritePass_eq quote passQuote literal
  grammarLiteral target := target.failure?_grammarLiteral literal
  charLiteral target := target.failure?_charLiteral literal
  message _ := message_of_fault?

end Literal

/-! ### The literals of a grammar -/

/-- The fault of the first literal that has one. -/
def firstFault? (literals : List (TokenType × String)) : Option Fault :=
  literals.findSome? (fun literal => Literal.fault? literal.2)

theorem firstFault?_cons (literal : TokenType × String) (rest : List (TokenType × String)) :
    firstFault? (literal :: rest) = (Literal.fault? literal.2).or (firstFault? rest) := by
  unfold firstFault?
  rw [List.findSome?_cons]
  cases Literal.fault? literal.2 with
  | none => rfl
  | some fault => rfl

theorem Lexer.failure?_decodeLiterals (literals : List (TokenType × String)) :
    failure? (decodeLiterals literals) = firstFault? literals := by
  induction literals with
  | nil => rfl
  | cons literal rest ih =>
      rw [firstFault?_cons, ← ih, ← Literal.failure?_decode literal.2]
      exact failure?_bind_map _ _ _

theorem Lexer.failure?_ofVocabulary (vocabulary : Vocabulary) :
    failure? (ofVocabulary vocabulary) = firstFault? vocabulary.literals :=
  (failure?_map (decodeLiterals vocabulary.literals) _).trans
    (failure?_decodeLiterals vocabulary.literals)

theorem Session.failure?_renderLiterals (target : Target)
    (literals : List (TokenType × String)) :
    failure? (renderLiterals target literals) = firstFault? literals := by
  induction literals with
  | nil => rfl
  | cons literal rest ih =>
      rw [firstFault?_cons, ← ih, ← target.failure?_grammarLiteral literal.2]
      exact failure?_bind_map _ _ _

/-- Reading fails on the literals that lack a delimiter or end in a backslash that takes nothing,
and on no others, whoever reads and for whatever target; the message tells the literal and which of
the two it is.  So the lexer of a grammar and any session fail on the same grammars, both with the
message for the first such literal. -/
theorem readers_fail_alike :
    (∀ literal, Literal.FailsAlike literal) ∧
    ∀ (grammar : Grammar) (session : Session),
      failure? (Lexer.ofVocabulary grammar.vocabulary) =
        failure? (session.tokenLiterals grammar) ∧
      failure? (session.tokenLiterals grammar) = firstFault? grammar.vocabulary.literals := by
  refine ⟨Literal.failsAlike, ?_⟩
  intro grammar session
  have rendering : failure? (session.tokenLiterals grammar) =
      firstFault? grammar.vocabulary.literals :=
    Session.failure?_renderLiterals session.target grammar.vocabulary.literals
  exact ⟨(Lexer.failure?_ofVocabulary _).trans rendering.symm, rendering⟩

/-- Two backslashes are a pair, a third one takes nothing; a lone quote is no literal. -/
example : Literal.fault? "'\\\\'" = none ∧
    Literal.fault? "'\\\\\\'" = some (.danglingEscape "'\\\\\\'") ∧
    Literal.fault? "'" = some (.missingDelimiters "'") := by
  decide

end LiteralGrammar
