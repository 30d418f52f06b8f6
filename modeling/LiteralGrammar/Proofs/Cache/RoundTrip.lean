/-
Stored grammars read back.

Every reader takes a record by its parts, whether they were written as an object
or as an array, so a reader is told by what it makes of the parts.  Reading then
undoes writing record by record, for whole trees of grammars: lists in their
order, look-ups of a vocabulary and exceptions as the sets that they are.
-/

import LiteralGrammar.Cache.Form
import LiteralGrammar.Proofs.Rule.Exceptions
import Mathlib.Data.List.Forall2

namespace LiteralGrammar

/-! ### Look-ups from their entries -/

namespace NameMap

variable {Value : Type}

theorem valueOf?_eq_none {name : String} {entries : List (String × Value)}
    (absent : name ∉ entries.map Prod.fst) : valueOf? name entries = none := by
  induction entries with
  | nil => rfl
  | cons head rest ih =>
      rw [List.map_cons, List.mem_cons, not_or] at absent
      rw [valueOf?, if_neg absent.1, ih absent.2]

theorem valueOf?_eq_some_iff {name : String} {value : Value} {entries : List (String × Value)}
    (distinct : (entries.map Prod.fst).Nodup) :
    valueOf? name entries = some value ↔ (name, value) ∈ entries := by
  induction entries with
  | nil => simp [valueOf?]
  | cons head rest ih =>
      rw [List.map_cons, List.nodup_cons] at distinct
      rw [valueOf?, List.mem_cons]
      by_cases same : name = head.1
      · have notLater : (name, value) ∉ rest := by
          intro later
          exact distinct.1 (same ▸ List.mem_map_of_mem later)
        rw [if_pos same, Option.some.injEq, or_iff_left notLater, Prod.ext_iff]
        exact ⟨fun equal => ⟨same, equal.symm⟩, fun equal => equal.2.symm⟩
      · have notHere : (name, value) ≠ head := fun equal => same (congrArg Prod.fst equal)
        rw [if_neg same, or_iff_right notHere, ih distinct.2]

theorem find?_foldl_insert {entries : List (String × Value)}
    (distinct : (entries.map Prod.fst).Nodup) (map : NameMap Value) (name : String) :
    (entries.foldl (fun map entry => map.insert entry.1 entry.2) map).find? name =
      (valueOf? name entries).or (map.find? name) := by
  induction entries generalizing map with
  | nil => rfl
  | cons head rest ih =>
      rw [List.map_cons, List.nodup_cons] at distinct
      rw [List.foldl_cons, ih distinct.2, find?_insert, valueOf?]
      by_cases same : name = head.1
      · have absent : valueOf? name rest = none := valueOf?_eq_none (same ▸ distinct.1)
        rw [absent, if_pos same, if_pos same]
        rfl
      · rw [if_neg same, if_neg same]

theorem find?_ofList {entries : List (String × Value)}
    (distinct : (entries.map Prod.fst).Nodup) (name : String) :
    (ofList entries).find? name = valueOf? name entries := by
  unfold ofList
  rw [find?_foldl_insert distinct, find?_empty, Option.or_none]

theorem ofList_entries (map : NameMap Value) : ofList map.entries = map :=
  ext_find? (find?_ofList map.keys_nodup)

/-- Distinct names may be entered in any order. -/
theorem ofList_eq_of_perm {left right : List (String × Value)} (permuted : left.Perm right)
    (distinct : (left.map Prod.fst).Nodup) : ofList left = ofList right := by
  have distinctRight : (right.map Prod.fst).Nodup := (permuted.map Prod.fst).nodup_iff.mp distinct
  apply ext_find?
  intro name
  rw [find?_ofList distinct, find?_ofList distinctRight]
  apply Option.ext
  intro value
  rw [valueOf?_eq_some_iff distinct, valueOf?_eq_some_iff distinctRight, permuted.mem_iff]

end NameMap

namespace Cache

open Json

/-! ### Lists -/

theorem mapM_map_of_law {Item Value : Type} {read : Item → Option Value} {write : Value → Item}
    (law : ∀ value, read (write value) = some value) (values : List Value) :
    (values.map write).mapM read = some values := by
  have each : read ∘ write = pure := funext law
  rw [List.mapM_map, each, List.mapM_pure, List.map_id']
  rfl

/-- A list is read as a whole when each of its members is. -/
theorem mapM_eq_some_iff {Item Value : Type} {read : Item → Option Value} {items : List Item}
    {values : List Value} :
    items.mapM read = some values ↔
      List.Forall₂ (fun item value => read item = some value) items values := by
  induction items generalizing values with
  | nil =>
      rw [List.mapM_nil, List.forall₂_nil_left_iff]
      exact ⟨fun same => (Option.some.inj same).symm, fun same => congrArg some same.symm⟩
  | cons item rest ih =>
      rw [List.mapM_cons, List.forall₂_cons_left_iff]
      constructor
      · intro found
        obtain ⟨value, here, afterHere⟩ := Option.bind_eq_some_iff.mp found
        obtain ⟨later, rested, same⟩ := Option.bind_eq_some_iff.mp afterHere
        exact ⟨value, later, here, ih.mp rested, (Option.some.inj same).symm⟩
      · intro ⟨value, later, here, rested, same⟩
        rw [here, ih.mpr rested, same]
        rfl

theorem readList_writeList {Value : Type} {read : Json → Option Value} {write : Value → Json}
    (law : ∀ value, read (write value) = some value) (values : List Value) :
    readList read (writeList write values) = some values :=
  mapM_map_of_law law values

/-! ### Records by their parts -/

theorem parts?_object_eq_some_iff {fields : List (String × Json)} {names : List String}
    {parts : List Json} :
    (object fields).parts? names = some parts ↔
      List.Forall₂ (fun name part => field? fields name = some part) names parts :=
  mapM_eq_some_iff

theorem parts?_array_eq_some_iff {items parts : List Json} {names : List String} :
    (array items).parts? names = some parts ↔ items.length = names.length ∧ items = parts := by
  unfold parts?
  rw [Option.ite_none_right_eq_some, Option.some.injEq]

section

variable {json first second third fourth fifth : Json}

theorem readElement_of_parts (parted : json.parts? ["literal", "repeat"] = some [first, second]) :
    readElement json = (do
      return { literal := ← first.text?
               repetition := ← readRepetition second }) := by
  unfold readElement
  rw [parted]

theorem readAlternative_of_parts (parted : json.parts? ["elements"] = some [first]) :
    readAlternative json = readList readElement first := by
  unfold readAlternative
  rw [parted]

theorem readExceptions_of_parts (parted : json.parts? ["throws"] = some [first]) :
    readExceptions json = (readList text? first).map ExceptionSet.ofNames := by
  unfold readExceptions
  rw [parted]

theorem readRule_of_parts
    (parted : json.parts? ["name", "alternatives", "metadata"] = some [first, second, third]) :
    readRule json = (do
      return { name := ← first.text?
               alternatives := ← readList readAlternative second
               exceptions := ← readExceptions third }) := by
  unfold readRule
  rw [parted]

theorem readVocabulary_of_parts
    (parted : json.parts? ["names", "by_name"] = some [first, second]) :
    readVocabulary json = (do
      return { names := ← readList text? first
               byName := ← readNameMap second }) := by
  unfold readVocabulary
  rw [parted]

theorem readShell_of_parts
    (parted : json.parts? ["name", "kind", "rules", "delegates", "vocabulary"] =
      some [first, second, third, fourth, fifth]) :
    readShell json = (do
      let name ← first.text?
      let kind ← readKind second
      let rules ← readList readRule third
      let vocabulary ← readVocabulary fifth
      return fun delegates => ⟨name, kind, rules, delegates, vocabulary⟩) := by
  unfold readShell
  rw [parted]

end

/-! ### Grammars by their parts -/

theorem readAll_eq (items : List Json) : readAll items = items.mapM read := by
  induction items with
  | nil => rfl
  | cons first rest ih =>
      rw [readAll, List.mapM_cons, ih]

theorem readArray_eq (json : Json) : readArray json = readList read json := by
  cases json with
  | array items => exact (readArray.eq_1 items).trans (readAll_eq items)
  | null | boolean _ | number _ | decimal _ _ | text _ | object _ => rfl

theorem readDelegates_of_field? {fields : List (String × Json)} {value : Json}
    (found : field? fields "delegates" = some value) : readDelegates fields = readArray value := by
  induction fields with
  | nil => cases found
  | cons field rest ih =>
      obtain ⟨name, first⟩ := field
      rw [readDelegates]
      unfold field? at found ih
      rw [List.filter_cons] at found
      -- A field that occurs once is the first of its name.
      by_cases same : name = "delegates"
      · rw [if_pos (by simpa using same)] at found
        rw [if_pos same]
        cases others : rest.filter (fun field => field.1 = "delegates") with
        | nil =>
            rw [others] at found
            exact congrArg readArray (Option.some.inj found)
        | cons second more =>
            rw [others] at found
            cases found
      · rw [if_neg (by simpa using same)] at found
        rw [if_neg same, ih found]

/-- A grammar is read from its five parts, like any record. -/
theorem read_of_parts {json name kind rules delegates vocabulary : Json}
    (parted : json.parts? ["name", "kind", "rules", "delegates", "vocabulary"] =
      some [name, kind, rules, delegates, vocabulary]) :
    read json = (do
      let name ← name.text?
      let kind ← readKind kind
      let rules ← readList readRule rules
      let vocabulary ← readVocabulary vocabulary
      let delegates ← readList read delegates
      return ⟨name, kind, rules, delegates, vocabulary⟩) := by
  cases json with
  | object fields =>
      have imported : field? fields "delegates" = some delegates := by
        have found := parts?_object_eq_some_iff.mp parted
        simp only [List.forall₂_cons] at found
        exact found.2.2.2.1
      rw [read, readShell_of_parts parted, readDelegates_of_field? imported, readArray_eq]
      simp only [bind_assoc, pure_bind]
  | array items =>
      have whole := (parts?_array_eq_some_iff.mp parted).2
      rw [read, readShell_of_parts parted, whole, readFourth, readArray_eq]
      simp only [bind_assoc, pure_bind]
  | null | boolean _ | number _ | decimal _ _ | text _ => cases parted

/-! ### Reading what was written -/

theorem readRepetition_text (repetition : Repetition) :
    readRepetition (.text (repetitionName repetition)) = some repetition := by
  cases repetition <;> rfl

theorem readKind_text (kind : GrammarKind) : readKind (.text (kindName kind)) = some kind := by
  cases kind <;> rfl

theorem readElement_write (element : Element) :
    readElement (writeElement element) = some element := by
  rw [readElement_of_parts rfl, readRepetition_text]
  rfl

theorem readAlternative_write (alternative : Alternative) :
    readAlternative (writeAlternative alternative) = some alternative := by
  rw [readAlternative_of_parts rfl, readList_writeList readElement_write]

theorem readTexts_write (names : List String) :
    readList text? (writeList .text names) = some names :=
  readList_writeList (fun name => (rfl : (Json.text name).text? = some name)) names

theorem readExceptions_write (exceptions : ExceptionSet) :
    readExceptions (writeExceptions exceptions) = some exceptions := by
  rw [readExceptions_of_parts rfl, readTexts_write, Option.map_some, ExceptionSet.ofNames_names]

theorem readRule_write (rule : Rule) : readRule (writeRule rule) = some rule := by
  rw [readRule_of_parts rfl, readList_writeList readAlternative_write, readExceptions_write]
  rfl

theorem readType_write (type : TokenType) : readType (writeType type) = some type := by
  have within : Int32.minValue.toInt ≤ type.raw.toInt ∧
      type.raw.toInt ≤ Int32.maxValue.toInt :=
    ⟨type.raw.minValue_le_toInt, type.raw.toInt_le⟩
  change (if _ then some ({ raw := Int32.ofInt type.raw.toInt } : TokenType) else none) = _
  rw [if_pos within, Int32.ofInt_toInt]

theorem readNamedType_write (entry : String × TokenType) :
    readNamedType (entry.1, writeType entry.2) = some entry := by
  unfold readNamedType
  rw [readType_write]
  rfl

theorem readNameMap_write (map : NameMap TokenType) :
    readNameMap (.object (map.entries.map (fun entry => (entry.1, writeType entry.2)))) =
      some map := by
  change (do
    let entries ← (map.entries.map (fun entry => (entry.1, writeType entry.2))).mapM readNamedType
    return NameMap.ofList entries) = some map
  rw [mapM_map_of_law readNamedType_write]
  exact congrArg some map.ofList_entries

theorem readVocabulary_write (vocabulary : Vocabulary) :
    readVocabulary (writeVocabulary vocabulary) = some vocabulary := by
  rw [readVocabulary_of_parts rfl, readTexts_write, readNameMap_write]
  rfl

mutual

/-- Reading what was written gives back the same grammar. -/
theorem read_write : (grammar : Grammar) → read (write grammar) = some grammar
  | ⟨name, kind, rules, delegates, vocabulary⟩ => by
      rw [write, read_of_parts rfl, readKind_text, readList_writeList readRule_write,
        readVocabulary_write, readList, items?]
      change (do
        let delegates ← (writeAll delegates).mapM read
        return (⟨name, kind, rules, delegates, vocabulary⟩ : Grammar)) = _
      rw [readAll_writeAll delegates]
      rfl

theorem readAll_writeAll : (grammars : List Grammar) →
    (writeAll grammars).mapM read = some grammars
  | [] => rfl
  | first :: rest => by
      rw [writeAll, List.mapM_cons, read_write first, readAll_writeAll rest]
      rfl

end

end Cache

end LiteralGrammar
