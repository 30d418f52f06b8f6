/-
String literals of Pascal: quoted runs and numbered characters side by side.

Inside a run a quote is written twice.  Characters below the space cannot stand
in a run; each is written by its code, outside any run.
-/

import LiteralGrammar.Literal.Basic

namespace LiteralGrammar.Pascal

def quote : Char := '\''

/-- Whether a character has no printable form in a run. -/
def isControl (character : Char) : Bool :=
  character.toNat < 32

def runChar (character : Char) : List Char :=
  if character = quote then [quote, quote] else [character]

def codeItem (code : Nat) : List Char :=
  '#' :: Nat.toDigits 10 code

/-- The rest of a literal; the flag says whether a run has been started. -/
def continueLiteral : Bool → List Char → List Char
  | true, [] => [quote]
  | false, [] => []
  | inRun, character :: rest =>
      if isControl character then
        (if inRun then [quote] else []) ++ codeItem character.toNat ++ continueLiteral false rest
      else (if inRun then [] else [quote]) ++ runChar character ++ continueLiteral true rest

/-- A complete literal.  The empty text is an empty run. -/
def literalBody (text : List Char) : List Char :=
  if text.isEmpty then [quote, quote] else continueLiteral false text

/-- What stands between two quotes that the caller writes; a control character closes the run
and opens it again. -/
def innerBody (text : List Char) : List Char :=
  text.flatMap (fun character =>
    if isControl character then quote :: (codeItem character.toNat ++ [quote])
    else runChar character)

def ofText (quoted : Bool) (text : String) : String :=
  String.ofList (if quoted then literalBody text.toList else innerBody text.toList)

/-- The literal for a literal of grammar notation: what it denotes, written anew. -/
def ofLiteral (literal : String) : Except Fault String :=
  (Literal.decode literal).map (ofText true)

/-- The character literal for a literal of grammar notation; code zero stands where no
single character is denoted. -/
def charLiteral (literal : String) : Except Fault String :=
  (Literal.charValue literal).map (fun
    | some character => ofText true character.toString
    | none => String.ofList (codeItem 0))

end LiteralGrammar.Pascal
