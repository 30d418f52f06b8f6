/-
Vocabularies after a run of definitions.

A run answers every name with its type.  The names known after it are those of
the run, each at the place where it came first, and a run that follows only adds
names behind them.  So the place of a name, and with it its type, stays what it
was when the name was defined.
-/

import LiteralGrammar.Proofs.Fault
import LiteralGrammar.Proofs.Vocabulary.Numbering
import Mathlib.Data.List.Basic

namespace LiteralGrammar

/-! ### Places in thirty-two bits -/

namespace TokenType

/-- How far a type lies behind the first one, where that difference fits thirty-two bits. -/
def offset? (type : TokenType) : Option Int32 :=
  let offset := type.raw - 4
  if offset.toInt = type.raw.toInt - 4 then some offset else none

/-- The difference fits for all but the four lowest types. -/
theorem toInt_sub_four_iff (type : TokenType) :
    (type.raw - 4).toInt = type.raw.toInt - 4 ↔ Int32.minValue.toInt + 4 ≤ type.raw.toInt := by
  have greatest := type.raw.toInt_lt
  have lowest : Int32.minValue.toInt = -2 ^ 31 := by decide
  have four : (4 : Int32).toInt = 4 := by decide
  rw [Int32.toInt_sub, four, lowest]
  constructor
  · intro fits
    have bounded := Int.le_bmod (x := type.raw.toInt - 4) (m := 2 ^ 32) (by decide)
    omega
  · intro above
    exact Int.bmod_eq_of_le (by omega) (by omega)

/-- The place of a type is the difference, where there is one that is not negative. -/
theorem index?_eq_offset? (type : TokenType) :
    type.index? =
      type.offset?.bind (fun offset =>
        if 0 ≤ offset.toInt then some offset.toInt.toNat else none) := by
  have lowest : Int32.minValue.toInt = -2 ^ 31 := by decide
  unfold index? offset?
  by_cases above : Int32.minValue.toInt + 4 ≤ type.raw.toInt
  · have fits := (toInt_sub_four_iff type).mpr above
    rw [if_pos fits, Option.bind_some, fits]
    simp only [Int.sub_nonneg]
  · have apart := fun fits => above ((toInt_sub_four_iff type).mp fits)
    rw [if_neg apart, Option.bind_none, if_neg (by omega)]

theorem index?_eq_some_iff (type : TokenType) (index : Nat) :
    type.index? = some index ↔ type.raw.toInt = 4 + index := by
  unfold index?
  split
  · rw [Option.some.injEq]
    omega
  · constructor
    · intro impossible
      cases impossible
    · intro same
      omega

theorem eq_ofIndex_iff {type : TokenType} {index : Nat} (within : index < capacity) :
    type = ofIndex index ↔ type.raw.toInt = 4 + index := by
  constructor
  · intro same
    rw [same, ofIndex_toInt within]
  · intro same
    have raws : type.raw = (ofIndex index).raw := by
      rw [← Int32.toInt_inj, same, ofIndex_toInt within]
    cases type
    cases raws
    rfl

end TokenType

/-! ### First places -/

section

variable {Value : Type} [DecidableEq Value]

theorem eraseDups_starts_append (earlier later : List Value) :
    earlier.eraseDups <+: (earlier ++ later).eraseDups := by
  rw [List.eraseDups_append]
  exact List.prefix_append _ _

theorem eraseDups_concat (values : List Value) (value : Value) :
    (values ++ [value]).eraseDups =
      if value ∈ values then values.eraseDups else values.eraseDups ++ [value] := by
  rw [List.eraseDups_append]
  by_cases known : value ∈ values
  · simp [known, List.removeAll]
  · simp [known, List.removeAll, List.eraseDups_cons]

theorem idxOf_of_starts {left right : List Value} {value : Value} (starts : left <+: right)
    (member : value ∈ left) : right.idxOf value = left.idxOf value := by
  obtain ⟨rest, same⟩ := starts
  rw [← same, List.idxOf_append_of_mem member]

end

namespace Vocabulary

/-- Defines names in a row; also answers the type of each. -/
def defineEach (vocabulary : Vocabulary) : List String → Except Fault (List TokenType × Vocabulary)
  | [] => .ok ([], vocabulary)
  | name :: rest => do
      let defined ← vocabulary.define name
      let later ← defined.2.defineEach rest
      return (defined.1 :: later.1, later.2)

theorem defineAll_eq (vocabulary : Vocabulary) (names : List String) :
    vocabulary.defineAll names = (vocabulary.defineEach names).map Prod.snd := by
  induction names generalizing vocabulary with
  | nil => rfl
  | cons name rest ih =>
      rw [defineAll, defineEach]
      cases vocabulary.define name with
      | error fault => rfl
      | ok defined =>
          change defined.2.defineAll rest = ((defined.2.defineEach rest).map _).map Prod.snd
          rw [ih]
          cases defined.2.defineEach rest with
          | error fault => rfl
          | ok later => rfl

theorem defineEach_cons_eq_ok_iff {vocabulary last : Vocabulary} {name : String}
    {rest : List String} {types : List TokenType} :
    vocabulary.defineEach (name :: rest) = .ok (types, last) ↔
      ∃ type middle later, vocabulary.define name = .ok (type, middle) ∧
        middle.defineEach rest = .ok (later, last) ∧ types = type :: later := by
  rw [defineEach, bind_eq_ok_iff]
  constructor
  · intro ⟨⟨type, middle⟩, first, afterFirst⟩
    obtain ⟨⟨later, end_⟩, rested, same⟩ := bind_eq_ok_iff.mp afterFirst
    cases same
    exact ⟨type, middle, later, first, rested, rfl⟩
  · intro ⟨type, middle, later, first, rested, same⟩
    refine ⟨(type, middle), first, bind_eq_ok_iff.mpr ⟨(later, last), rested, ?_⟩⟩
    rw [same]
    rfl

/-- A name whose place is known has the type of that place, and no other name has one. -/
theorem WellFormed.tokenType?_eq_some_iff {vocabulary : Vocabulary} (formed : vocabulary.WellFormed)
    {name : String} {type : TokenType} :
    vocabulary.tokenType? name = some type ↔
      name ∈ vocabulary.names ∧ type = TokenType.ofIndex (vocabulary.names.idxOf name) := by
  rw [formed.numbered]
  constructor
  · intro ⟨index, present, same⟩
    obtain ⟨within, found⟩ := List.getElem?_eq_some_iff.mp present
    refine ⟨List.mem_of_getElem? present, ?_⟩
    rw [same, ← found, formed.distinct.idxOf_getElem index within]
  · intro ⟨member, same⟩
    exact ⟨_, List.getElem?_idxOf member, same⟩

/-- After a definition the name has its place among the names so far. -/
theorem names_of_define {vocabulary extended : Vocabulary} {earlier : List String} {name : String}
    {type : TokenType} (formed : vocabulary.WellFormed)
    (same : vocabulary.names = earlier.eraseDups)
    (defined : vocabulary.define name = .ok (type, extended)) :
    extended.names = (earlier ++ [name]).eraseDups := by
  have known : name ∈ vocabulary.names ↔ name ∈ earlier := by
    rw [same, List.mem_eraseDups]
  rw [formed.define_names defined, eraseDups_concat, ← same]
  simp only [known]

/-- A run keeps a vocabulary well formed, lists names where they come first and answers each with
the type of its place. -/
theorem WellFormed.defineEach {vocabulary last : Vocabulary} {earlier names : List String}
    {types : List TokenType} (formed : vocabulary.WellFormed)
    (same : vocabulary.names = earlier.eraseDups)
    (defined : vocabulary.defineEach names = .ok (types, last)) :
    last.WellFormed ∧ last.names = (earlier ++ names).eraseDups ∧
      types = names.map (fun name => TokenType.ofIndex (last.names.idxOf name)) := by
  induction names generalizing vocabulary earlier types with
  | nil =>
      cases defined
      exact ⟨formed, by rw [same, List.append_nil], rfl⟩
  | cons name rest ih =>
      obtain ⟨type, middle, later, first, rested, listed⟩ := defineEach_cons_eq_ok_iff.mp defined
      have middleFormed := formed.define first
      have middleNames := names_of_define formed same first
      obtain ⟨lastFormed, lastNames, laterTypes⟩ := ih middleFormed middleNames rested
      rw [List.append_assoc, List.singleton_append] at lastNames
      -- Later names come behind the ones so far, so the place of this name is final.
      have starts : middle.names <+: last.names := by
        rw [middleNames, lastNames, List.append_cons earlier name rest]
        exact eraseDups_starts_append _ rest
      obtain ⟨member, place⟩ :=
        middleFormed.tokenType?_eq_some_iff.mp (tokenType?_of_define first)
      refine ⟨lastFormed, lastNames, ?_⟩
      rw [listed, List.map_cons, idxOf_of_starts starts member, ← place, ← laterTypes]

/-- A definition succeeds where the name is known or a type is left for it. -/
theorem define_exists {vocabulary : Vocabulary} {name : String}
    (room : vocabulary.tokenType? name = none → vocabulary.names.length < TokenType.capacity) :
    ∃ type extended, vocabulary.define name = .ok (type, extended) := by
  cases known : vocabulary.tokenType? name with
  | some type => exact ⟨type, vocabulary, define_known known⟩
  | none =>
      unfold define
      rw [known]
      exact ⟨_, _, if_pos (room known)⟩

/-- A run succeeds where there are types enough for the names before it and in it. -/
theorem WellFormed.defineEach_exists {vocabulary : Vocabulary} {earlier names : List String}
    (formed : vocabulary.WellFormed) (same : vocabulary.names = earlier.eraseDups)
    (room : (earlier ++ names).eraseDups.length ≤ TokenType.capacity) :
    ∃ types last, vocabulary.defineEach names = .ok (types, last) := by
  induction names generalizing vocabulary earlier with
  | nil => exact ⟨[], vocabulary, rfl⟩
  | cons name rest ih =>
      rw [List.append_cons] at room
      have within := (eraseDups_starts_append (earlier ++ [name]) rest).length_le
      have left : vocabulary.tokenType? name = none →
          vocabulary.names.length < TokenType.capacity := by
        intro unknown
        have fresh : name ∉ earlier := by
          rw [← List.mem_eraseDups, ← same]
          exact formed.not_mem_names unknown
        rw [eraseDups_concat, if_neg fresh, ← same, List.length_append,
          List.length_singleton] at within
        omega
      obtain ⟨type, middle, first⟩ := define_exists left
      obtain ⟨later, last, rested⟩ :=
        ih (formed.define first) (names_of_define formed same first) room
      exact ⟨type :: later, last,
        defineEach_cons_eq_ok_iff.mpr ⟨type, middle, later, first, rested, rfl⟩⟩

/-- A run that follows leaves every type handed out as it is. -/
theorem tokenType?_of_defineEach {vocabulary last : Vocabulary} {earlier names : List String}
    {types : List TokenType} (formed : vocabulary.WellFormed)
    (same : vocabulary.names = earlier.eraseDups)
    (defined : vocabulary.defineEach names = .ok (types, last)) {name : String} {type : TokenType}
    (known : vocabulary.tokenType? name = some type) : last.tokenType? name = some type := by
  obtain ⟨lastFormed, lastNames, _⟩ := formed.defineEach same defined
  have starts : vocabulary.names <+: last.names := by
    rw [same, lastNames]
    exact eraseDups_starts_append earlier names
  obtain ⟨member, place⟩ := formed.tokenType?_eq_some_iff.mp known
  apply lastFormed.tokenType?_eq_some_iff.mpr
  rw [idxOf_of_starts starts member]
  exact ⟨starts.subset member, place⟩

theorem names_ofNames {names : List String} {vocabulary : Vocabulary}
    (defined : ofNames names = .ok vocabulary) : vocabulary.names = names.eraseDups := by
  unfold ofNames at defined
  rw [defineAll_eq] at defined
  obtain ⟨⟨types, last⟩, each, same⟩ := map_eq_ok_iff.mp defined
  rw [← same]
  exact (wellFormed_empty.defineEach List.eraseDups_nil.symm each).2.1

/-- A vocabulary of these names is made unless there are more of them than types. -/
theorem ofNames_exists_iff (names : List String) :
    (∃ vocabulary, ofNames names = .ok vocabulary) ↔
      names.eraseDups.length ≤ TokenType.capacity := by
  constructor
  · intro ⟨vocabulary, defined⟩
    rw [← names_ofNames defined]
    exact (wellFormed_of_ofNames defined).bounded
  · intro room
    obtain ⟨types, vocabulary, defined⟩ :=
      wellFormed_empty.defineEach_exists List.eraseDups_nil.symm room
    refine ⟨vocabulary, ?_⟩
    unfold ofNames
    rw [defineAll_eq, defined]
    rfl

/-! ### Names and types, both ways -/

namespace WellFormed

variable {vocabulary : Vocabulary} (formed : vocabulary.WellFormed)

include formed

theorem tokenType?_of_mem {name : String} (member : name ∈ vocabulary.names) :
    ∃ type, vocabulary.tokenType? name = some type ∧
      type.raw.toInt = 4 + (vocabulary.names.idxOf name : Int) :=
  ⟨_, formed.tokenType?_eq_some_iff.mpr ⟨member, rfl⟩,
    TokenType.ofIndex_toInt (formed.index_lt (List.getElem?_idxOf member))⟩

theorem tokenType?_eq_some_iff_displayName? {name : String} {type : TokenType}
    (inner : type ≠ TokenType.endOfInput) :
    vocabulary.tokenType? name = some type ↔ vocabulary.displayName? type = some name := by
  unfold displayName?
  rw [formed.numbered, if_neg inner, Option.bind_eq_some_iff]
  constructor
  · intro ⟨index, present, same⟩
    refine ⟨index, ?_, present⟩
    rw [same, TokenType.index?_ofIndex (formed.index_lt present)]
  · intro ⟨index, placed, present⟩
    refine ⟨index, present, ?_⟩
    rw [TokenType.eq_ofIndex_iff (formed.index_lt present), ← TokenType.index?_eq_some_iff, placed]

theorem tokens_ascending :
    vocabulary.tokens.Pairwise (fun left right => left.1.raw.toInt < right.1.raw.toInt) := by
  unfold tokens
  rw [List.pairwise_map, List.pairwise_iff_getElem]
  intro left right leftWithin rightWithin before
  have bounded := formed.bounded
  rw [List.length_zipIdx] at leftWithin rightWithin
  rw [List.getElem_zipIdx, List.getElem_zipIdx, TokenType.ofIndex_toInt (by omega),
    TokenType.ofIndex_toInt (by omega)]
  omega

end WellFormed

theorem displayName?_eq_none_iff (vocabulary : Vocabulary) (type : TokenType) :
    vocabulary.displayName? type = none ↔
      type ≠ TokenType.endOfInput ∧
        ¬(4 ≤ type.raw.toInt ∧ type.raw.toInt < 4 + vocabulary.names.length) := by
  unfold displayName?
  by_cases last : type = TokenType.endOfInput
  · simp [last]
  · rw [if_neg last, and_iff_right last]
    cases placed : type.index? with
    | none =>
        have below : ¬4 ≤ type.raw.toInt := by
          unfold TokenType.index? at placed
          simpa using placed
        simp [below]
    | some index =>
        rw [TokenType.index?_eq_some_iff] at placed
        rw [Option.bind_some, List.getElem?_eq_none_iff]
        omega

theorem tokens_map_snd (vocabulary : Vocabulary) :
    vocabulary.tokens.map Prod.snd = vocabulary.names := by
  unfold tokens
  rw [List.map_map]
  exact List.zipIdx_map_fst 0 vocabulary.names

/-- What a vocabulary answers after a history of names has been defined, in this order and with
any repetitions. -/
structure Enumerates (vocabulary : Vocabulary) (history : List String) : Prop where
  names : vocabulary.names = history.eraseDups
  /-- Each name has the type of its place, and defining it again answers that and changes
  nothing. -/
  again : ∀ name ∈ history, ∃ type, type.raw.toInt = 4 + (history.eraseDups.idxOf name : Int) ∧
    vocabulary.tokenType? name = some type ∧ vocabulary.define name = .ok (type, vocabulary)
  /-- Whatever is defined later, the types handed out stay. -/
  stable : ∀ later types extended, vocabulary.defineEach later = .ok (types, extended) →
    ∀ name type, vocabulary.tokenType? name = some type → extended.tokenType? name = some type
  /-- Only the end of the input is shown by a name that it need not have. -/
  inverse : ∀ name type, type ≠ TokenType.endOfInput →
    (vocabulary.tokenType? name = some type ↔ vocabulary.displayName? type = some name)
  /-- Showing a type takes a difference of words, which is checked; there is an answer for each
  of them. -/
  shown : ∀ type, vocabulary.displayName? type =
    if type = TokenType.endOfInput then some "EOF"
    else (type.offset?.bind (fun offset =>
      if 0 ≤ offset.toInt then some offset.toInt.toNat else none)).bind
        (fun index => vocabulary.names[index]?)
  unshown : ∀ type, vocabulary.displayName? type = none ↔
    type ≠ TokenType.endOfInput ∧
      ¬(4 ≤ type.raw.toInt ∧ type.raw.toInt < 4 + vocabulary.names.length)
  listed : vocabulary.tokens.map Prod.snd = vocabulary.names ∧
    ∀ type name, (type, name) ∈ vocabulary.tokens ↔ vocabulary.tokenType? name = some type
  ascending : vocabulary.tokens.Pairwise (fun left right => left.1.raw.toInt < right.1.raw.toInt)
  literals : vocabulary.literals =
    vocabulary.tokens.filter (fun token => token.2.toList.head? = some '\'')

theorem enumerates_of_names {vocabulary : Vocabulary} {history : List String}
    (formed : vocabulary.WellFormed) (same : vocabulary.names = history.eraseDups) :
    vocabulary.Enumerates history where
  names := same
  again := by
    intro name member
    have listed : name ∈ vocabulary.names := by
      rw [same, List.mem_eraseDups]
      exact member
    obtain ⟨type, known, place⟩ := formed.tokenType?_of_mem listed
    exact ⟨type, by rw [place, same], known, define_known known⟩
  stable := fun _ _ _ defined _ _ known => tokenType?_of_defineEach formed same defined known
  inverse := fun _ _ inner => formed.tokenType?_eq_some_iff_displayName? inner
  shown := by
    intro type
    rw [← TokenType.index?_eq_offset?]
    rfl
  unshown := vocabulary.displayName?_eq_none_iff
  listed := ⟨vocabulary.tokens_map_snd, formed.mem_tokens_iff⟩
  ascending := formed.tokens_ascending
  literals := rfl

/-- A run of definitions on the empty vocabulary, of fewer names than there are types, answers each
name with four more than the place of the name among those of the run, each counted where it came
first; and names and types belong together one to one after it. -/
theorem defineEach_enumerates (history : List String)
    (few : history.eraseDups.length < TokenType.capacity) :
    ∃ types vocabulary, empty.defineEach history = .ok (types, vocabulary) ∧
      types.map (fun type => type.raw.toInt) =
        history.map (fun name => 4 + (history.eraseDups.idxOf name : Int)) ∧
      vocabulary.Enumerates history := by
  have start : empty.names = [].eraseDups := List.eraseDups_nil.symm
  obtain ⟨types, vocabulary, defined⟩ : ∃ types vocabulary,
      empty.defineEach history = .ok (types, vocabulary) :=
    wellFormed_empty.defineEach_exists start (Nat.le_of_lt few)
  obtain ⟨formed, names, answers⟩ := wellFormed_empty.defineEach start defined
  rw [List.nil_append] at names
  refine ⟨types, vocabulary, defined, ?_, enumerates_of_names formed names⟩
  rw [answers, List.map_map]
  apply List.map_congr_left
  intro name member
  have listed : name ∈ vocabulary.names := by
    rw [names, List.mem_eraseDups]
    exact member
  change (TokenType.ofIndex (vocabulary.names.idxOf name)).raw.toInt = _
  rw [TokenType.ofIndex_toInt (formed.index_lt (List.getElem?_idxOf listed)), names]

theorem defineEach_enumerates_repeated :
    ["ID", "EOF", "'a'", "ID", "'a'"].eraseDups.length < TokenType.capacity ∧
      ∃ types vocabulary,
        empty.defineEach ["ID", "EOF", "'a'", "ID", "'a'"] = .ok (types, vocabulary) ∧
        types.map (fun type => type.raw.toInt) = [4, 5, 6, 4, 6] ∧
        vocabulary.Enumerates ["ID", "EOF", "'a'", "ID", "'a'"] :=
  ⟨by decide, defineEach_enumerates _ (by decide)⟩

end Vocabulary

end LiteralGrammar
