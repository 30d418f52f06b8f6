/-
Literals of the C family of languages: text between two quotes, with backslash
escapes.

A literal of grammar notation keeps those of its escapes that the target knows
and loses the backslash of any other; raw text goes through an escape table.
Character literals are written in ASCII alone.
-/

import LiteralGrammar.Literal.Basic
import LiteralGrammar.Target.EscapeTable
import LiteralGrammar.Text.Utf16

namespace LiteralGrammar.CFamily

/-- Whether an escape of grammar notation survives where strings end at `quote`. -/
def passesThrough (quote escaped : Char) : Bool :=
  escaped = quote || escaped ∈ ['n', 'r', 't', 'b', 'f', '\\', 'u']

/-- One glyph inside a literal that ends at `quote`, where the escapes that survive are
those for strings that end at `passQuote`. -/
def renderGlyph (quote passQuote : Char) : Glyph → List Char
  | .plain character => if character = quote then ['\\', character] else [character]
  | .escaped character =>
      if passesThrough passQuote character then ['\\', character] else [character]

def renderGlyphs (quote passQuote : Char) (glyphs : List Glyph) : List Char :=
  glyphs.flatMap (renderGlyph quote passQuote)

def ofLiteral (quote passQuote : Char) (literal : String) : Except Fault String :=
  (Literal.glyphs literal).map (fun glyphs =>
    String.ofList (quote :: (renderGlyphs quote passQuote glyphs ++ [quote])))

/-- One character of raw text; `verbatim` characters bypass the table. -/
def escapeChar (table : EscapeTable) (verbatim : Char → Bool) (character : Char) : List Char :=
  if verbatim character then [character]
  else
    match table.lookup character with
    | some escape => escape.toList
    | none => [character]

def escapeText (table : EscapeTable) (verbatim : Char → Bool) (text : List Char) : List Char :=
  text.flatMap (escapeChar table verbatim)

/-- Raw text as it stands in a target literal, with or without the quotes. -/
def ofText (table : EscapeTable) (quote : Char) (quoted : Bool) (verbatim : Char → Bool)
    (text : String) : String :=
  let body := escapeText table verbatim text.toList
  String.ofList (if quoted then quote :: (body ++ [quote]) else body)

def isPrintableAscii (character : Char) : Bool :=
  ' ' ≤ character && character ≤ '~'

def unitEscape (letters : Text.LetterCase) (unit : Text.CodeUnit) : List Char :=
  '\\' :: 'u' :: Text.hexWord letters unit

def charBody (table : EscapeTable) (character : Char) : List Char :=
  match table.lookup character with
  | some escape => escape.toList
  | none =>
      if isPrintableAscii character then [character]
      else (Text.codeUnits character).flatMap (unitEscape .upper)

/-- The character literal that stands where no single character is denoted. -/
def nullBody : List Char :=
  unitEscape .upper 0

def charLiteral (table : EscapeTable) (literal : String) : Except Fault String :=
  (Literal.charValue literal).map (fun
    | some character => Literal.enclose (charBody table character)
    | none => Literal.enclose nullBody)

end LiteralGrammar.CFamily
