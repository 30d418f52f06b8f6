/-
Tokens and the places where they start.

Lines count from one and columns from zero; a line break ends its line.  Both
are words of 32 bits, and the largest word is followed by zero.
-/

import LiteralGrammar.Vocabulary.TokenType

namespace LiteralGrammar

structure Position where
  line : UInt32
  column : UInt32
  deriving DecidableEq, Repr

namespace Position

def start : Position :=
  { line := 1
    column := 0 }

def next (position : Position) (character : Char) : Position :=
  if character = '\n' then { line := position.line + 1, column := 0 }
  else { position with column := position.column + 1 }

def advance (position : Position) (text : List Char) : Position :=
  text.foldl next position

theorem advance_append (position : Position) (left right : List Char) :
    position.advance (left ++ right) = (position.advance left).advance right :=
  List.foldl_append

end Position

structure Token where
  type : TokenType
  text : String
  position : Position
  deriving DecidableEq, Repr

namespace Token

def endOfInput (position : Position) : Token :=
  { type := TokenType.endOfInput
    text := "<EOF>"
    position := position }

def isEnd (token : Token) : Bool :=
  token.type = TokenType.endOfInput

end Token

/-- The tokens of an input.  The last one marks the end and can be read again and again. -/
structure TokenStream where
  body : List Token
  last : Token
  deriving DecidableEq, Repr

namespace TokenStream

def tokens (stream : TokenStream) : List Token :=
  stream.body ++ [stream.last]

def types (stream : TokenStream) : List TokenType :=
  stream.body.map Token.type

end TokenStream

end LiteralGrammar
