/-
Kinds of grammar, by what the recognizer made from one does.
-/

namespace LiteralGrammar

inductive GrammarKind where
  | lexer
  | parser
  | treeParser
  | combined
  deriving DecidableEq, Repr

namespace GrammarKind

def all : List GrammarKind :=
  [.lexer, .parser, .treeParser, .combined]

def name : GrammarKind → String
  | .lexer => "lexer"
  | .parser => "parser"
  | .treeParser => "tree parser"
  | .combined => "combined"

theorem mem_all (kind : GrammarKind) : kind ∈ all := by
  cases kind <;> decide

theorem name_injective {left right : GrammarKind} (same : left.name = right.name) :
    left = right := by
  revert same
  cases left <;> cases right <;> decide

def ofName? (text : String) : Option GrammarKind :=
  all.find? (fun kind => kind.name = text)

theorem ofName?_name (kind : GrammarKind) : ofName? kind.name = some kind := by
  cases kind <;> decide

/-- Names of the scopes that actions in a grammar of this kind may name. -/
def actionScopes : GrammarKind → List String
  | .lexer => ["lexer"]
  | .parser => ["parser"]
  | .treeParser => ["treeparser"]
  | .combined => ["parser", "lexer"]

def allowsScope (kind : GrammarKind) (scope : String) : Bool :=
  scope ∈ kind.actionScopes

end GrammarKind

end LiteralGrammar
