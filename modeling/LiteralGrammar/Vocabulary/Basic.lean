/-
The vocabulary of a grammar: its tokens, numbered in the order of definition.

A token is named by its identifier or, if it has none, by its literal.  The
names and the look-up by name are separate, since a vocabulary that was stored
and read back is taken as it stands; `define` keeps the two in step.
-/

import LiteralGrammar.Fault
import LiteralGrammar.Literal.Basic
import LiteralGrammar.NameMap
import LiteralGrammar.Vocabulary.TokenType

namespace LiteralGrammar

structure Vocabulary where
  names : List String
  byName : NameMap TokenType
  deriving DecidableEq

namespace Vocabulary

def empty : Vocabulary :=
  { names := []
    byName := NameMap.empty }

def tokenType? (vocabulary : Vocabulary) (name : String) : Option TokenType :=
  vocabulary.byName.find? name

/-- The type of a name, which is given one if it has none and is refused if no type is left.  Of
the names that are refused, the first four have a place that is itself a number of 32 bits, so that
only adding four to it overflows; this is taken as the same refusal. -/
def define (vocabulary : Vocabulary) (name : String) : Except Fault (TokenType × Vocabulary) :=
  match vocabulary.tokenType? name with
  | some type => .ok (type, vocabulary)
  | none =>
      if vocabulary.names.length < TokenType.capacity then
        let type := TokenType.ofIndex vocabulary.names.length
        .ok (type,
          { names := vocabulary.names ++ [name]
            byName := vocabulary.byName.insert name type })
      else .error (.vocabularyFull name)

def defineAll (vocabulary : Vocabulary) : List String → Except Fault Vocabulary
  | [] => .ok vocabulary
  | name :: rest =>
      match vocabulary.define name with
      | .ok (_, extended) => extended.defineAll rest
      | .error fault => .error fault

def ofNames (names : List String) : Except Fault Vocabulary :=
  empty.defineAll names

def displayName? (vocabulary : Vocabulary) (type : TokenType) : Option String :=
  if type = TokenType.endOfInput then some "EOF"
  else type.index?.bind (fun index => vocabulary.names[index]?)

def tokens (vocabulary : Vocabulary) : List (TokenType × String) :=
  vocabulary.names.zipIdx.map (fun entry => (TokenType.ofIndex entry.2, entry.1))

def literals (vocabulary : Vocabulary) : List (TokenType × String) :=
  vocabulary.tokens.filter (fun token => Literal.opensAsLiteral token.2)

def size (vocabulary : Vocabulary) : Nat :=
  vocabulary.names.length

/-- What generated code calls a type: the token's name, or the number of a token without a
name of its own. -/
def label (vocabulary : Vocabulary) (type : TokenType) : String :=
  match vocabulary.displayName? type with
  | some name => if Literal.opensAsLiteral name then type.display else name
  | none => type.display

theorem define_known {vocabulary : Vocabulary} {name : String} {type : TokenType}
    (known : vocabulary.tokenType? name = some type) :
    vocabulary.define name = .ok (type, vocabulary) := by
  unfold define
  rw [known]

theorem tokenType?_of_define {vocabulary extended : Vocabulary} {name : String}
    {type : TokenType} (defined : vocabulary.define name = .ok (type, extended)) :
    extended.tokenType? name = some type := by
  unfold define at defined
  split at defined
  · rename_i known
    cases defined
    exact known
  · split at defined
    · cases defined
      unfold tokenType?
      rw [NameMap.find?_insert, if_pos rfl]
    · cases defined

end Vocabulary

end LiteralGrammar
