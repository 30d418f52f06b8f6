/-
Recognizing an input from a rule of a grammar.

The lexer runs over the whole input first, so its diagnostics precede the one
that prediction or matching may add.  What follows the end of the rule is left
alone.
-/

import LiteralGrammar.Decision.Matching
import LiteralGrammar.Grammar.Delegation
import LiteralGrammar.Token.Lexer

namespace LiteralGrammar

/-- The result of recognizing one rule; alternatives are numbered from one. -/
structure Outcome where
  alternative : Option Nat
  diagnostics : List Diagnostic
  deriving DecidableEq, Repr

namespace Outcome

def isSuccess (outcome : Outcome) : Bool :=
  outcome.diagnostics.isEmpty

def report (outcome : Outcome) : String :=
  Diagnostic.report outcome.diagnostics

end Outcome

/-- Why no outcome is reached. -/
inductive ParseFailure where
  | unknownRule (name : String)
  | endless
  deriving DecidableEq, Repr

namespace ParseFailure

def message : ParseFailure → String
  | unknownRule name => "no rule named '" ++ name ++ "'"
  | endless => "a loop takes the end of the input for ever"

end ParseFailure

structure Recognizer where
  grammar : Grammar
  lexer : Lexer

namespace Recognizer

def ofGrammar (grammar : Grammar) : Except Fault Recognizer :=
  (Lexer.ofVocabulary grammar.vocabulary).map (fun lexer =>
    { grammar := grammar, lexer := lexer })

def expectedName (vocabulary : Vocabulary) (type : TokenType) : String :=
  (vocabulary.displayName? type).getD "<invalid>"

def settle (vocabulary : Vocabulary) (decision : Decision) (stream : TokenStream) :
    Except ParseFailure Outcome :=
  match decision.predict stream.tokens with
  | .error token =>
      .ok { alternative := none, diagnostics := [Diagnostic.noViableAlternative token] }
  | .ok alternative =>
      match Decision.matchSlots (decision.slots alternative) stream with
      | .complete _ => .ok { alternative := some (alternative + 1), diagnostics := [] }
      | .mismatch _ found expected =>
          .ok { alternative := some (alternative + 1)
                diagnostics :=
                  [Diagnostic.mismatch found (expectedName vocabulary expected)] }
      | .endless => .error .endless

def parse (recognizer : Recognizer) (name input : String) : Except ParseFailure Outcome :=
  match recognizer.grammar.resolveRule? name with
  | none => .error (.unknownRule name)
  | some rule =>
      let vocabulary := recognizer.grammar.vocabulary
      let scan := recognizer.lexer.tokenize input
      (settle vocabulary (Decision.ofRule vocabulary rule) scan.stream).map (fun outcome =>
        { outcome with diagnostics := scan.diagnostics ++ outcome.diagnostics })

end Recognizer

end LiteralGrammar
