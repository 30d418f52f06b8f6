/-
Violations of what a caller promises.

A fault says which promise was broken and on what; its message is the only
place where the wording is decided.  Mistakes of a user, such as a wrong name
on a command line, are not faults.
-/

import LiteralGrammar.Target.Basic
import LiteralGrammar.Text.Quoted

namespace LiteralGrammar

inductive Fault where
  | missingDelimiters (literal : String)
  | danglingEscape (literal : String)
  | entryOutsideTable (character : Char)
  | lookupOutsideTable (code : Nat)
  | vocabularyFull (name : String)
  | alreadyPrepared (target : Target)
  deriving DecidableEq, Repr

namespace Fault

open Text

def message : Fault → String
  | missingDelimiters literal =>
      "grammar literal " ++ quoteText literal ++ " is missing its delimiters"
  | danglingEscape literal =>
      "grammar literal " ++ quoteText literal ++ " ends with a dangling escape"
  | entryOutsideTable character =>
      "escape table entry for " ++ quoteChar character ++ " is outside the table domain"
  | lookupOutsideTable code =>
      "escape table lookup for code " ++ Nat.repr code ++ " outside 0..256"
  | vocabularyFull name => "token vocabulary overflow defining " ++ name
  | alreadyPrepared target =>
      "post-analysis already ran for this " ++ target.name ++ " session"

end Fault

end LiteralGrammar
