/-
One session of code generation for one target.

A session prepares a single grammar, once: the target may then adjust the
grammar before code is emitted.  Only Apex does, where every rule that can be
started from raises the exception of its recognizers.
-/

import LiteralGrammar.Grammar.Exceptions
import LiteralGrammar.Options
import LiteralGrammar.Target.Rendering

namespace LiteralGrammar

def recognitionException : String :=
  "RecognitionException"

/-- What a target does to an analysed grammar before emission. -/
def Target.adjust (target : Target) (grammar : Grammar) : Grammar :=
  match target with
  | .apex => (grammar.requireException recognitionException).2
  | _ => grammar

structure Session where
  options : Options
  prepared : Bool
  deriving DecidableEq, Repr

namespace Session

def start (options : Options) : Session :=
  { options := options
    prepared := false }

def target (session : Session) : Target :=
  session.options.target

def prepare (session : Session) (grammar : Grammar) : Except Fault (Session × Grammar) :=
  if session.prepared then .error (.alreadyPrepared session.target)
  else .ok ({ session with prepared := true }, session.target.adjust grammar)

def renderLiterals (target : Target) :
    List (TokenType × String) → Except Fault (List (TokenType × String))
  | [] => .ok []
  | literal :: rest => do
      let rendered ← target.grammarLiteral literal.2
      let later ← renderLiterals target rest
      return (literal.1, rendered) :: later

/-- The target literal of every literal token, in the order of the types. -/
def tokenLiterals (session : Session) (grammar : Grammar) :
    Except Fault (List (TokenType × String)) :=
  renderLiterals session.target grammar.vocabulary.literals

def flagText (flag : Bool) : String :=
  if flag then "true" else "false"

def display (session : Session) : String :=
  "CodegenSession \x7b target: " ++ session.target.name ++ ", verbose: " ++
    flagText session.options.verbose ++ ", prepared: " ++ flagText session.prepared ++ " \x7d"

end Session

end LiteralGrammar
