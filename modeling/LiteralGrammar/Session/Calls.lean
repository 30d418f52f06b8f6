/-
Calls of one session on any number of grammars.

A call does its work in steps, and what it has done before a fault stays done.
The grammars are told apart by keys; a call is given the key of one of them.
-/

import LiteralGrammar.Session
import Mathlib.Logic.Function.Basic

namespace LiteralGrammar.Session

inductive Call (Key : Type) where
  | prepare (key : Key)
  | tokenLiterals (key : Key)
  deriving DecidableEq, Repr

/-- What a call returns when it meets no fault. -/
inductive Answer where
  | prepared
  | literals (rendered : List (TokenType × String))
  deriving DecidableEq, Repr

/-- A session and the grammars that it can be called on. -/
structure Workspace (Key : Type) where
  session : Session
  grammars : Key → Grammar

variable {Key : Type}

/-- The key of the grammar that a call asks to prepare. -/
def Call.prepared? : Call Key → Option Key
  | .prepare key => some key
  | .tokenLiterals _ => none

/-- The key of the grammar that the first call to prepare asks for. -/
def firstPrepared? (calls : List (Call Key)) : Option Key :=
  calls.findSome? Call.prepared?

namespace Workspace

def start (options : Options) (grammars : Key → Grammar) : Workspace Key :=
  { session := Session.start options
    grammars := grammars }

/-- Renders the literals of a grammar; neither it nor the session is written to. -/
def tokenLiterals (workspace : Workspace Key) (key : Key) :
    Except Fault Answer × Workspace Key :=
  ((workspace.session.tokenLiterals (workspace.grammars key)).map Answer.literals, workspace)

variable [DecidableEq Key]

/-- Checks the session, marks it, and then lets the target adjust the grammar. -/
def prepare (workspace : Workspace Key) (key : Key) : Except Fault Answer × Workspace Key :=
  if workspace.session.prepared then
    (.error (.alreadyPrepared workspace.session.target), workspace)
  else
    let marked := { workspace with session := { workspace.session with prepared := true } }
    let adjusted := marked.session.target.adjust (marked.grammars key)
    (.ok .prepared, { marked with grammars := Function.update marked.grammars key adjusted })

def perform (workspace : Workspace Key) : Call Key → Except Fault Answer × Workspace Key
  | .prepare key => workspace.prepare key
  | .tokenLiterals key => workspace.tokenLiterals key

/-- What a number of calls leave behind, whether or not some of them meet a fault. -/
def after (workspace : Workspace Key) (calls : List (Call Key)) : Workspace Key :=
  calls.foldl (fun reached call => (reached.perform call).2) workspace

/-- The steps of a preparation come to what the session makes of the grammar as a whole. -/
theorem prepare_eq (workspace : Workspace Key) (key : Key) :
    workspace.prepare key =
      match workspace.session.prepare (workspace.grammars key) with
      | .ok (session, grammar) =>
          (.ok .prepared,
            { session := session, grammars := Function.update workspace.grammars key grammar })
      | .error fault => (.error fault, workspace) := by
  unfold prepare Session.prepare
  cases workspace.session.prepared with
  | false => rfl
  | true => rfl

end Workspace

end LiteralGrammar.Session
