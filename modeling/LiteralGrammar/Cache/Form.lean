/-
The stored form of a grammar.

What is read is taken as it stands: no literal is checked, and nothing links the
names of a vocabulary to its look-up by name.  Fields that the form does not
know are passed over.  Reading what was written gives back the same grammar.
-/

import LiteralGrammar.Cache.Json
import LiteralGrammar.Grammar.Basic

namespace LiteralGrammar.Cache

open Json

/-! ### Writing -/

def repetitionName : Repetition → String
  | .once => "Once"
  | .zeroOrMore => "ZeroOrMore"
  | .oneOrMore => "OneOrMore"

def kindName : GrammarKind → String
  | .lexer => "Lexer"
  | .parser => "Parser"
  | .treeParser => "TreeParser"
  | .combined => "Combined"

def writeElement (element : Element) : Json :=
  .object [("literal", .text element.literal),
    ("repeat", .text (repetitionName element.repetition))]

def writeAlternative (alternative : Alternative) : Json :=
  .object [("elements", writeList writeElement alternative)]

def writeExceptions (exceptions : ExceptionSet) : Json :=
  .object [("throws", writeList .text exceptions.names)]

def writeRule (rule : Rule) : Json :=
  .object [("name", .text rule.name),
    ("alternatives", writeList writeAlternative rule.alternatives),
    ("metadata", writeExceptions rule.exceptions)]

def writeType (type : TokenType) : Json :=
  .number type.raw.toInt

def writeVocabulary (vocabulary : Vocabulary) : Json :=
  .object [("names", writeList .text vocabulary.names),
    ("by_name",
      .object (vocabulary.byName.entries.map (fun entry => (entry.1, writeType entry.2))))]

mutual

def write : Grammar → Json
  | ⟨name, kind, rules, delegates, vocabulary⟩ =>
      .object [("name", .text name), ("kind", .text (kindName kind)),
        ("rules", writeList writeRule rules), ("delegates", .array (writeAll delegates)),
        ("vocabulary", writeVocabulary vocabulary)]

def writeAll : List Grammar → List Json
  | [] => []
  | first :: rest => write first :: writeAll rest

end

/-! ### Reading -/

def readRepetition (json : Json) : Option Repetition := do
  let name ← json.choice?
  [.once, .zeroOrMore, .oneOrMore].find? (fun repetition => repetitionName repetition = name)

def readKind (json : Json) : Option GrammarKind := do
  let name ← json.choice?
  GrammarKind.all.find? (fun kind => kindName kind = name)

def readElement (json : Json) : Option Element :=
  match json.parts? ["literal", "repeat"] with
  | some [literal, repetition] => do
      return { literal := ← literal.text?
               repetition := ← readRepetition repetition }
  | _ => none

def readAlternative (json : Json) : Option Alternative :=
  match json.parts? ["elements"] with
  | some [elements] => readList readElement elements
  | _ => none

def readExceptions (json : Json) : Option ExceptionSet :=
  match json.parts? ["throws"] with
  | some [names] => (readList text? names).map ExceptionSet.ofNames
  | _ => none

def readRule (json : Json) : Option Rule :=
  match json.parts? ["name", "alternatives", "metadata"] with
  | some [name, alternatives, exceptions] => do
      return { name := ← name.text?
               alternatives := ← readList readAlternative alternatives
               exceptions := ← readExceptions exceptions }
  | _ => none

/-- A number that fits thirty-two bits with a sign. -/
def readType (json : Json) : Option TokenType := do
  let value ← json.number?
  if Int32.minValue.toInt ≤ value ∧ value ≤ Int32.maxValue.toInt then
    some { raw := Int32.ofInt value }
  else none

def readNamedType (field : String × Json) : Option (String × TokenType) :=
  (readType field.2).map (field.1, ·)

def readNameMap (json : Json) : Option (NameMap TokenType) := do
  let fields ← json.fields?
  let entries ← fields.mapM readNamedType
  return NameMap.ofList entries

def readVocabulary (json : Json) : Option Vocabulary :=
  match json.parts? ["names", "by_name"] with
  | some [names, byName] => do
      return { names := ← readList text? names
               byName := ← readNameMap byName }
  | _ => none

/-- A grammar as it stands, for any list of imported grammars. -/
def readShell (json : Json) : Option (List Grammar → Grammar) :=
  match json.parts? ["name", "kind", "rules", "delegates", "vocabulary"] with
  | some [name, kind, rules, _, vocabulary] => do
      let name ← name.text?
      let kind ← readKind kind
      let rules ← readList readRule rules
      let vocabulary ← readVocabulary vocabulary
      return fun delegates => ⟨name, kind, rules, delegates, vocabulary⟩
  | _ => none

mutual

def read : Json → Option Grammar
  | .object fields => do
      let shell ← readShell (.object fields)
      let delegates ← readDelegates fields
      return shell delegates
  | .array items => do
      let shell ← readShell (.array items)
      let delegates ← readFourth items
      return shell delegates
  | _ => none

/-- The imported grammars, from the first field of that name. -/
def readDelegates : List (String × Json) → Option (List Grammar)
  | [] => none
  | (name, value) :: rest =>
      if name = "delegates" then readArray value else readDelegates rest

def readFourth : List Json → Option (List Grammar)
  | [_, _, _, value, _] => readArray value
  | _ => none

def readArray : Json → Option (List Grammar)
  | .array items => readAll items
  | _ => none

def readAll : List Json → Option (List Grammar)
  | [] => some []
  | first :: rest => do
      let grammar ← read first
      let later ← readAll rest
      return grammar :: later

end

end LiteralGrammar.Cache
