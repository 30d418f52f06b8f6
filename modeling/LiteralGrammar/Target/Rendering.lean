/-
What each output language does with the literals of a grammar.

Java and Apex are of the C family and differ in their quote and in how they
treat the double quote; Delphi writes Pascal literals.  The choices that only
the emission of code looks at stand here too.
-/

import LiteralGrammar.Grammar.Basic
import LiteralGrammar.Target.CFamily
import LiteralGrammar.Target.CharCode
import LiteralGrammar.Target.Pascal

namespace LiteralGrammar

inductive TablePlacement where
  | separate
  | recognizer
  deriving DecidableEq, Repr

namespace TablePlacement

def name : TablePlacement → String
  | .separate => "Separate"
  | .recognizer => "Recognizer"

end TablePlacement

namespace Target

/-- The mark that delimits the language's string literals. -/
def quote : Target → Char
  | .java => '"'
  | .apex => '\''
  | .delphi => '\''

def escapes : Target → EscapeTable
  | .java => EscapeTable.cFamily
  | .apex => EscapeTable.cFamily
  | .delphi => EscapeTable.pascal

def passesThrough (target : Target) (escaped : Char) : Bool :=
  CFamily.passesThrough target.quote escaped

/-- Characters of raw text that are not looked up in the escape table. -/
def keepsVerbatim (target : Target) (character : Char) : Bool :=
  match target with
  | .apex => character = '"'
  | _ => false

def grammarLiteral (target : Target) (literal : String) : Except Fault String :=
  match target with
  | .delphi => Pascal.ofLiteral literal
  | _ => CFamily.ofLiteral target.quote target.quote literal

/-- The string literal for raw text, or what stands between its quotes. -/
def rawLiteral (target : Target) (quoted : Bool) (text : String) : String :=
  match target with
  | .delphi => Pascal.ofText quoted text
  | _ => CFamily.ofText target.escapes target.quote quoted target.keepsVerbatim text

def charLiteral (target : Target) (literal : String) : Except Fault String :=
  match target with
  | .delphi => Pascal.charLiteral literal
  | _ => CFamily.charLiteral target.escapes literal

def charCode (target : Target) (value : UInt32) : String :=
  match target with
  | .delphi => String.ofList (CharCode.numberChars value)
  | _ => String.ofList (CharCode.escapeChars value)

/-- What generated code calls a token type of a grammar.  No language has names of its own. -/
def tokenLabel (_target : Target) (grammar : Grammar) (type : TokenType) : String :=
  grammar.vocabulary.label type

def maxCharCode (_target : Target) : Nat :=
  0xFFFF

/-- Whether fragments for syntactic predicates use the base templates. -/
def usesBaseTemplates : Target → Bool
  | .apex => false
  | _ => true

def tablePlacement : Target → TablePlacement
  | .apex => .recognizer
  | _ => .separate

end Target

end LiteralGrammar
