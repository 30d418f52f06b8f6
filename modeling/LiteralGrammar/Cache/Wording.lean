/-
When two stored forms say the same.

They may differ, at any depth of the tree, in fields that the form does not know,
in the order of an object's fields, in how often and in what order the exceptions
of a rule are named, and in the order of a vocabulary's look-up by name.
-/

import LiteralGrammar.Cache.Json
import Mathlib.Data.List.Forall2

namespace LiteralGrammar.Cache

/-- A part of a record: its name, and when two values of it say the same. -/
abbrev Part := String × (Json → Json → Prop)

/-- Records with parts that say the same, whatever fields of other names an object has. -/
inductive SameRecord (parts : List Part) : Json → Json → Prop where
  | refl (json : Json) : SameRecord parts json json
  | object {left right : List (String × Json)}
      (known : ∀ part ∈ parts,
        List.Forall₂ (fun leftField rightField => part.2 leftField.2 rightField.2)
          (left.filter (fun field => field.1 = part.1))
          (right.filter (fun field => field.1 = part.1))) :
      SameRecord parts (.object left) (.object right)
  | array {pairs : List (Json × Json)}
      (known : List.Forall₂ (fun (part : Part) pair => part.2 pair.1 pair.2) parts pairs) :
      SameRecord parts (.array (pairs.map Prod.fst)) (.array (pairs.map Prod.snd))

inductive SameList (same : Json → Json → Prop) : Json → Json → Prop where
  | refl (json : Json) : SameList same json json
  | array {left right : List Json} (members : List.Forall₂ same left right) :
      SameList same (.array left) (.array right)

/-- Lists of texts with the same members. -/
inductive SameNames : Json → Json → Prop where
  | refl (json : Json) : SameNames json json
  | array {left right : List String} (members : ∀ name, name ∈ left ↔ name ∈ right) :
      SameNames (.array (left.map .text)) (.array (right.map .text))

/-- Objects with the same fields in any order, none of them repeated. -/
inductive SameTable : Json → Json → Prop where
  | refl (json : Json) : SameTable json json
  | object {left right : List (String × Json)} (distinct : (left.map Prod.fst).Nodup)
      (permuted : left.Perm right) : SameTable (.object left) (.object right)

def SameElement : Json → Json → Prop :=
  SameRecord [("literal", Eq), ("repeat", Eq)]

def SameAlternative : Json → Json → Prop :=
  SameRecord [("elements", SameList SameElement)]

def SameExceptions : Json → Json → Prop :=
  SameRecord [("throws", SameNames)]

def SameRule : Json → Json → Prop :=
  SameRecord [("name", Eq), ("alternatives", SameList SameAlternative),
    ("metadata", SameExceptions)]

def SameVocabulary : Json → Json → Prop :=
  SameRecord [("names", Eq), ("by_name", SameTable)]

/-- Grammars that say the same, where imports below this depth are equal. -/
def SameGrammar : Nat → Json → Json → Prop
  | 0 => Eq
  | depth + 1 =>
      SameRecord [("name", Eq), ("kind", Eq), ("rules", SameList SameRule),
        ("delegates", SameList (SameGrammar depth)), ("vocabulary", SameVocabulary)]

end LiteralGrammar.Cache
