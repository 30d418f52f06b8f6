/-
Quoted text for messages.

A message quotes the text it talks about so that every character of it can be
seen: line breaks and the like are named by a letter, the enclosing mark and
the backslash are escaped, and what cannot be printed is given by its code.
-/

import LiteralGrammar.Text.Unprintable

namespace LiteralGrammar.Text

/-- Code of a character in lower-case hexadecimal, without padding. -/
def codeEscape (character : Char) : List Char :=
  ['\\', 'u', '\x7b'] ++ Nat.toDigits 16 character.toNat ++ ['\x7d']

def quotedChar (mark character : Char) : List Char :=
  if character = '\x00' then ['\\', '0']
  else if character = '\t' then ['\\', 't']
  else if character = '\r' then ['\\', 'r']
  else if character = '\n' then ['\\', 'n']
  else if character = '\\' ∨ character = mark then ['\\', character]
  else if isUnprintable character then codeEscape character
  else [character]

def quoteWith (mark : Char) (characters : List Char) : List Char :=
  mark :: (characters.flatMap (quotedChar mark) ++ [mark])

def quoteText (text : String) : String :=
  String.ofList (quoteWith '"' text.toList)

def quoteChar (character : Char) : String :=
  String.ofList (quoteWith '\'' [character])

end LiteralGrammar.Text
