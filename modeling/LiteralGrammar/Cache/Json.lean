/-
Values of JSON, as stored grammars need them.

Integers are kept apart from the numbers that are written with a fraction or an
exponent, which no part of a grammar is read from.  An object keeps its fields in
the order in which they were written, repeated ones included.
-/

namespace LiteralGrammar

inductive Json where
  | null
  | boolean (value : Bool)
  | number (value : Int)
  | decimal (digits exponent : Int)
  | text (value : String)
  | array (items : List Json)
  | object (fields : List (String × Json))

namespace Json

def field? (fields : List (String × Json)) (name : String) : Option Json :=
  match fields.filter (fun field => field.1 = name) with
  | [field] => some field.2
  | _ => none

/-- The parts of a record with these fields: an object that has each of them once, whatever else
it has, or an array of exactly the parts in order. -/
def parts? (names : List String) : Json → Option (List Json)
  | object fields => names.mapM (field? fields)
  | array items => if items.length = names.length then some items else none
  | _ => none

def text? : Json → Option String
  | text value => some value
  | _ => none

def number? : Json → Option Int
  | number value => some value
  | _ => none

def items? : Json → Option (List Json)
  | array items => some items
  | _ => none

def fields? : Json → Option (List (String × Json))
  | object fields => some fields
  | _ => none

/-- The name of a choice without contents: a text, or an object whose only field is null. -/
def choice? : Json → Option String
  | text value => some value
  | object [(name, null)] => some name
  | _ => none

def readList {Value : Type} (read : Json → Option Value) (json : Json) : Option (List Value) :=
  json.items?.bind (fun items => items.mapM read)

def writeList {Value : Type} (write : Value → Json) (values : List Value) : Json :=
  array (values.map write)

end Json

end LiteralGrammar
