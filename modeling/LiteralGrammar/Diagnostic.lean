/-
Syntax errors as a recognizer reports them, one line of text each.
-/

import LiteralGrammar.Token.Basic

namespace LiteralGrammar

inductive Problem where
  | noViableAlternative
  | mismatch (expecting : String)
  | noViableCharacter
  deriving DecidableEq, Repr

structure Diagnostic where
  position : Position
  found : String
  problem : Problem
  deriving DecidableEq, Repr

/-- A character with line breaks and tabs made visible. -/
def visibleChar (character : Char) : List Char :=
  if character = '\n' then ['\\', 'n']
  else if character = '\r' then ['\\', 'r']
  else if character = '\t' then ['\\', 't']
  else [character]

def visibleText (text : List Char) : String :=
  String.ofList ('\'' :: (text.flatMap visibleChar ++ ['\'']))

def Token.shown (token : Token) : String :=
  if token.isEnd then "<EOF>" else visibleText token.text.toList

namespace Diagnostic

def noViableAlternative (token : Token) : Diagnostic :=
  { position := token.position
    found := token.shown
    problem := .noViableAlternative }

def mismatch (token : Token) (expecting : String) : Diagnostic :=
  { position := token.position
    found := token.shown
    problem := .mismatch expecting }

def noViableCharacter (character : Char) (position : Position) : Diagnostic :=
  { position := position
    found := visibleText [character]
    problem := .noViableCharacter }

def description (diagnostic : Diagnostic) : String :=
  match diagnostic.problem with
  | .noViableAlternative => "no viable alternative at input " ++ diagnostic.found
  | .mismatch expecting =>
      "mismatched input " ++ diagnostic.found ++ " expecting " ++ expecting
  | .noViableCharacter => "no viable alternative at character " ++ diagnostic.found

def text (diagnostic : Diagnostic) : String :=
  "line " ++ Nat.repr diagnostic.position.line.toNat ++ ":" ++
    Nat.repr diagnostic.position.column.toNat ++ " " ++ diagnostic.description

/-- What a recognizer writes for a list of diagnostics: each text on a line of its own. -/
def report (diagnostics : List Diagnostic) : String :=
  String.ofList (diagnostics.flatMap (fun diagnostic => diagnostic.text.toList ++ ['\n']))

end Diagnostic

end LiteralGrammar
