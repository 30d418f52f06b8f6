/-
Tables that say how a character is written inside a target literal.

A table has a place for each character code below 256.  Asking for a place
outside the domain by code is a fault; asking by character is not, and finds no
entry there.
-/

import LiteralGrammar.Fault

namespace LiteralGrammar

structure EscapeTable where
  entries : Fin 256 → Option String

namespace EscapeTable

theorem ext_entries {left right : EscapeTable}
    (same : ∀ code, left.entries code = right.entries code) : left = right := by
  cases left
  cases right
  congr
  exact funext same

instance : DecidableEq EscapeTable :=
  fun left right =>
    match Nat.decidableForallFin (fun code => left.entries code = right.entries code) with
    | isTrue same => isTrue (ext_entries same)
    | isFalse different => isFalse (fun equal => different (fun code => by rw [equal]))

/-- The table of a language that writes every character as itself. -/
def empty : EscapeTable :=
  { entries := fun _ => none }

def set (table : EscapeTable) (code : Fin 256) (escape : String) : EscapeTable :=
  { entries := fun other => if other = code then some escape else table.entries other }

theorem set_same (table : EscapeTable) (code : Fin 256) (escape : String) :
    (table.set code escape).entries code = some escape :=
  if_pos rfl

theorem set_other (table : EscapeTable) {code other : Fin 256} (escape : String)
    (different : other ≠ code) : (table.set code escape).entries other = table.entries other :=
  if_neg different

/-- The entries that the C family of languages shares. -/
def cFamily : EscapeTable :=
  ((((((((empty.set 10 "\\n").set 13 "\\r").set 9 "\\t").set 8 "\\b").set 12 "\\f").set 92
    "\\\\").set 39 "\\'").set 34 "\\\"")

/-- The entries of Pascal, where only the quote is special. -/
def pascal : EscapeTable :=
  empty.set 39 "''"

def inDomain (code : Nat) : Bool :=
  code < 256

def insert (table : EscapeTable) (character : Char) (escape : String) :
    Except Fault EscapeTable :=
  if inside : character.toNat < 256 then .ok (table.set ⟨character.toNat, inside⟩ escape)
  else .error (.entryOutsideTable character)

def escapeFor (table : EscapeTable) (code : Nat) : Except Fault (Option String) :=
  if inside : code < 256 then .ok (table.entries ⟨code, inside⟩)
  else .error (.lookupOutsideTable code)

def lookup (table : EscapeTable) (character : Char) : Option String :=
  if inside : character.toNat < 256 then table.entries ⟨character.toNat, inside⟩ else none

theorem escapeFor_eq_lookup (table : EscapeTable) (character : Char)
    (inside : inDomain character.toNat = true) :
    table.escapeFor character.toNat = .ok (table.lookup character) := by
  have bound : character.toNat < 256 := of_decide_eq_true inside
  unfold escapeFor lookup
  rw [dif_pos bound, dif_pos bound]

theorem lookup_of_insert {table changed : EscapeTable} {character : Char} {escape : String}
    (inserted : table.insert character escape = .ok changed) (other : Char) :
    changed.lookup other = if other = character then some escape else table.lookup other := by
  unfold insert at inserted
  split at inserted
  · rename_i inside
    cases inserted
    unfold lookup
    by_cases same : other = character
    · subst other
      rw [dif_pos inside, set_same, if_pos rfl]
    · rw [if_neg same]
      by_cases otherInside : other.toNat < 256
      · rw [dif_pos otherInside, dif_pos otherInside]
        apply set_other
        intro codes
        exact same (Char.toNat_inj.mp (Fin.mk.inj codes))
      · rw [dif_neg otherInside, dif_neg otherInside]
  · cases inserted

def listing (table : EscapeTable) : List (Fin 256 × String) :=
  (List.finRange 256).filterMap (fun code => (table.entries code).map (code, ·))

def size (table : EscapeTable) : Nat :=
  table.listing.length

def isEmpty (table : EscapeTable) : Bool :=
  table.size = 0

/-- The entries in braces, each a code and its quoted escape. -/
def display (table : EscapeTable) : String :=
  "\x7b" ++ String.intercalate ", " (table.listing.map (fun entry =>
    Nat.repr entry.1.val ++ ": " ++ Text.quoteText entry.2)) ++ "\x7d"

end EscapeTable

end LiteralGrammar
