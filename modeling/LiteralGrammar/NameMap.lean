/-
Maps from names to values, kept in ascending order of the names.

Because the order is part of the type, two maps that answer every look-up alike
are equal, whatever the history of either.  Names are compared by the codes of
their characters.
-/

namespace LiteralGrammar

structure NameMap (Value : Type) where
  entries : List (String × Value)
  ascending : entries.Pairwise (fun left right => left.1 < right.1)
  deriving DecidableEq

namespace NameMap

variable {Value : Type}

def empty : NameMap Value :=
  { entries := []
    ascending := List.Pairwise.nil }

def insertEntry (name : String) (value : Value) : List (String × Value) → List (String × Value)
  | [] => [(name, value)]
  | head :: rest =>
      if name < head.1 then (name, value) :: head :: rest
      else if name = head.1 then (name, value) :: rest
      else head :: insertEntry name value rest

private theorem mem_insertEntry {name : String} {value : Value}
    {entries : List (String × Value)} {entry : String × Value}
    (member : entry ∈ insertEntry name value entries) :
    entry = (name, value) ∨ entry ∈ entries := by
  induction entries with
  | nil => exact Or.inl (List.mem_singleton.mp member)
  | cons head rest ih =>
      unfold insertEntry at member
      split at member
      · exact List.mem_cons.mp member
      · split at member
        · rcases List.mem_cons.mp member with same | later
          · exact Or.inl same
          · exact Or.inr (List.mem_cons_of_mem head later)
        · rcases List.mem_cons.mp member with same | later
          · exact Or.inr (by rw [same]; exact List.mem_cons_self)
          · rcases ih later with same | old
            · exact Or.inl same
            · exact Or.inr (List.mem_cons_of_mem head old)

private theorem after_of_not_before {left right : String} (notBefore : ¬left < right)
    (different : ¬left = right) : right < left := by
  rcases Std.lt_trichotomy left right with before | same | after
  · exact absurd before notBefore
  · exact absurd same different
  · exact after

theorem insertEntry_ascending (name : String) (value : Value)
    {entries : List (String × Value)}
    (ascending : entries.Pairwise (fun left right => left.1 < right.1)) :
    (insertEntry name value entries).Pairwise (fun left right => left.1 < right.1) := by
  induction entries with
  | nil => exact List.pairwise_singleton _ _
  | cons head rest ih =>
      obtain ⟨headFirst, restAscending⟩ := List.pairwise_cons.mp ascending
      unfold insertEntry
      split
      · rename_i before
        apply List.pairwise_cons.mpr
        refine ⟨?_, ascending⟩
        intro entry member
        rcases List.mem_cons.mp member with same | later
        · rw [same]
          exact before
        · exact String.lt_trans before (headFirst entry later)
      · rename_i notBefore
        split
        · rename_i same
          apply List.pairwise_cons.mpr
          refine ⟨?_, restAscending⟩
          intro entry member
          rw [same]
          exact headFirst entry member
        · rename_i different
          apply List.pairwise_cons.mpr
          refine ⟨?_, ih restAscending⟩
          intro entry member
          rcases mem_insertEntry member with inserted | old
          · rw [inserted]
            exact after_of_not_before notBefore different
          · exact headFirst entry old

/-- The map with one more entry, which replaces an earlier one of that name. -/
def insert (map : NameMap Value) (name : String) (value : Value) : NameMap Value :=
  { entries := insertEntry name value map.entries
    ascending := insertEntry_ascending name value map.ascending }

def valueOf? (name : String) : List (String × Value) → Option Value
  | [] => none
  | head :: rest => if name = head.1 then some head.2 else valueOf? name rest

def find? (map : NameMap Value) (name : String) : Option Value :=
  valueOf? name map.entries

def contains (map : NameMap Value) (name : String) : Bool :=
  (map.find? name).isSome

def keys (map : NameMap Value) : List String :=
  map.entries.map Prod.fst

def ofList (entries : List (String × Value)) : NameMap Value :=
  entries.foldl (fun map entry => map.insert entry.1 entry.2) empty

theorem find?_empty (name : String) : (empty : NameMap Value).find? name = none := rfl

private theorem valueOf?_insertEntry (name other : String) (value : Value)
    (entries : List (String × Value)) :
    valueOf? other (insertEntry name value entries) =
      if other = name then some value else valueOf? other entries := by
  induction entries with
  | nil => rfl
  | cons head rest ih =>
      unfold insertEntry
      split
      · rfl
      · split
        · rename_i same
          by_cases chosen : other = name
          · rw [valueOf?, if_pos chosen, if_pos chosen]
          · have apart : ¬other = head.1 := fun equal => chosen (equal.trans same.symm)
            rw [valueOf?, if_neg chosen, if_neg chosen, valueOf?, if_neg apart]
        · rename_i different
          by_cases atHead : other = head.1
          · have apart : ¬other = name := fun equal => different (equal.symm.trans atHead)
            rw [valueOf?, if_pos atHead, if_neg apart, valueOf?, if_pos atHead]
          · rw [valueOf?, if_neg atHead, ih, valueOf?, if_neg atHead]

theorem find?_insert (map : NameMap Value) (name other : String) (value : Value) :
    (map.insert name value).find? other = if other = name then some value else map.find? other :=
  valueOf?_insertEntry name other value map.entries

private theorem valueOf?_isSome_iff (name : String) (entries : List (String × Value)) :
    (valueOf? name entries).isSome = true ↔ name ∈ entries.map Prod.fst := by
  induction entries with
  | nil =>
      constructor
      · intro impossible
        cases impossible
      · intro member
        cases member
  | cons head rest ih =>
      rw [valueOf?, List.map_cons, List.mem_cons]
      by_cases same : name = head.1
      · rw [if_pos same]
        exact ⟨fun _ => Or.inl same, fun _ => rfl⟩
      · rw [if_neg same, ih]
        exact ⟨Or.inr, fun either => either.resolve_left same⟩

theorem mem_keys_iff (map : NameMap Value) (name : String) :
    name ∈ map.keys ↔ map.contains name = true :=
  (valueOf?_isSome_iff name map.entries).symm

theorem keys_ascending (map : NameMap Value) : map.keys.Pairwise (· < ·) :=
  List.pairwise_map.mpr map.ascending

theorem keys_nodup (map : NameMap Value) : map.keys.Nodup := by
  apply List.Pairwise.imp ?_ map.keys_ascending
  intro left right before same
  rw [same] at before
  exact String.lt_irrefl right before

private theorem valueOf?_of_before {name : String} {entries : List (String × Value)}
    (before : ∀ entry ∈ entries, name < entry.1) : valueOf? name entries = none := by
  induction entries with
  | nil => rfl
  | cons head rest ih =>
      have apart : ¬name = head.1 := by
        intro same
        have less := before head List.mem_cons_self
        rw [← same] at less
        exact String.lt_irrefl name less
      rw [valueOf?, if_neg apart]
      exact ih (fun entry member => before entry (List.mem_cons_of_mem head member))

private theorem valueOf?_first (head : String × Value) (rest : List (String × Value)) :
    valueOf? head.1 (head :: rest) = some head.2 :=
  if_pos rfl

private theorem not_before_first {name : String} {value : Value} {head : String × Value}
    {rest : List (String × Value)}
    (ascending : (head :: rest).Pairwise (fun left right => left.1 < right.1))
    (found : valueOf? name (head :: rest) = some value) : ¬name < head.1 := by
  intro before
  have absent : valueOf? name (head :: rest) = none := by
    apply valueOf?_of_before
    intro entry member
    rcases List.mem_cons.mp member with same | later
    · rw [same]
      exact before
    · exact String.lt_trans before ((List.pairwise_cons.mp ascending).1 entry later)
  rw [absent] at found
  cases found

private theorem valueOf?_rest {head : String × Value} {rest : List (String × Value)}
    (ascending : (head :: rest).Pairwise (fun left right => left.1 < right.1)) (name : String) :
    valueOf? name rest = if name = head.1 then none else valueOf? name (head :: rest) := by
  split
  · rename_i same
    rw [same]
    exact valueOf?_of_before (List.pairwise_cons.mp ascending).1
  · rename_i apart
    rw [valueOf?, if_neg apart]

/-- Each first name is found in the other entries, so neither comes before the other. -/
private theorem first_eq_of_valueOf? {first second : String × Value}
    {leftRest rightRest : List (String × Value)}
    (leftAscending : (first :: leftRest).Pairwise (fun left right => left.1 < right.1))
    (rightAscending : (second :: rightRest).Pairwise (fun left right => left.1 < right.1))
    (same : ∀ name, valueOf? name (first :: leftRest) = valueOf? name (second :: rightRest)) :
    first = second := by
  have firstFound : valueOf? first.1 (second :: rightRest) = some first.2 := by
    rw [← same, valueOf?_first]
  have secondFound : valueOf? second.1 (first :: leftRest) = some second.2 := by
    rw [same, valueOf?_first]
  have namesEqual : first.1 = second.1 := by
    rcases Std.lt_trichotomy first.1 second.1 with before | equal | after
    · exact absurd before (not_before_first rightAscending firstFound)
    · exact equal
    · exact absurd after (not_before_first leftAscending secondFound)
  rw [namesEqual, valueOf?_first] at firstFound
  exact Prod.ext namesEqual (Option.some.inj firstFound).symm

private theorem entries_eq_of_valueOf? {left right : List (String × Value)}
    (leftAscending : left.Pairwise (fun first second => first.1 < second.1))
    (rightAscending : right.Pairwise (fun first second => first.1 < second.1))
    (same : ∀ name, valueOf? name left = valueOf? name right) : left = right := by
  induction left generalizing right with
  | nil =>
      cases right with
      | nil => rfl
      | cons head rest =>
          have atHead := same head.1
          rw [valueOf?_first] at atHead
          cases atHead
  | cons first leftRest ih =>
      cases right with
      | nil =>
          have atFirst := same first.1
          rw [valueOf?_first] at atFirst
          cases atFirst
      | cons second rightRest =>
          have firstsEqual := first_eq_of_valueOf? leftAscending rightAscending same
          have restsEqual : leftRest = rightRest := by
            apply ih (List.pairwise_cons.mp leftAscending).2 (List.pairwise_cons.mp rightAscending).2
            intro name
            rw [valueOf?_rest leftAscending, valueOf?_rest rightAscending, same, firstsEqual]
          rw [firstsEqual, restsEqual]

theorem ext_find? {left right : NameMap Value}
    (same : ∀ name, left.find? name = right.find? name) : left = right := by
  have entriesEqual := entries_eq_of_valueOf? left.ascending right.ascending same
  cases left
  cases right
  cases entriesEqual
  rfl

end NameMap

end LiteralGrammar
