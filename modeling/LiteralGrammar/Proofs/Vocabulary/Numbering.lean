/-
Vocabularies that are numbered as they grow.

A vocabulary made by definitions alone gives every name one type, by the place
where the name was defined first.  No two names share a type, and none has a
reserved one.
-/

import LiteralGrammar.Vocabulary.Basic

namespace LiteralGrammar

namespace Vocabulary

/-- The names are distinct and few enough, and the look-up answers with their places. -/
structure WellFormed (vocabulary : Vocabulary) : Prop where
  distinct : vocabulary.names.Nodup
  bounded : vocabulary.names.length ≤ TokenType.capacity
  numbered : ∀ name type, vocabulary.tokenType? name = some type ↔
    ∃ index, vocabulary.names[index]? = some name ∧ type = TokenType.ofIndex index

theorem wellFormed_empty : empty.WellFormed := by
  refine ⟨List.nodup_nil, Nat.zero_le _, ?_⟩
  intro name type
  constructor
  · intro impossible
    cases impossible
  · intro ⟨index, impossible, _⟩
    cases impossible

private theorem getElem?_concat_cases {names : List String} {name other : String} {index : Nat}
    (present : (names ++ [name])[index]? = some other) :
    names[index]? = some other ∨ (index = names.length ∧ other = name) := by
  rw [List.getElem?_append] at present
  split at present
  · exact Or.inl present
  · rename_i beyond
    have last := (List.getElem?_eq_some_iff.mp present).1
    rw [List.length_singleton] at last
    have atEnd : index = names.length := by omega
    rw [atEnd, Nat.sub_self] at present
    exact Or.inr ⟨atEnd, (Option.some.inj present).symm⟩

namespace WellFormed

variable {vocabulary : Vocabulary} (formed : vocabulary.WellFormed)

include formed

theorem mem_names_iff (name : String) :
    name ∈ vocabulary.names ↔ ∃ type, vocabulary.tokenType? name = some type := by
  constructor
  · intro member
    rcases List.mem_iff_getElem?.mp member with ⟨index, present⟩
    exact ⟨TokenType.ofIndex index, (formed.numbered _ _).mpr ⟨index, present, rfl⟩⟩
  · intro ⟨type, found⟩
    rcases (formed.numbered _ _).mp found with ⟨index, present, _⟩
    exact List.mem_of_getElem? present

theorem index_lt {index : Nat} {name : String}
    (present : vocabulary.names[index]? = some name) : index < TokenType.capacity :=
  Nat.lt_of_lt_of_le (List.getElem?_eq_some_iff.mp present).1 formed.bounded

/-- Different names have different types. -/
theorem tokenType?_injective {left right : String} {type : TokenType}
    (leftFound : vocabulary.tokenType? left = some type)
    (rightFound : vocabulary.tokenType? right = some type) : left = right := by
  rcases (formed.numbered _ _).mp leftFound with ⟨leftIndex, leftPresent, leftType⟩
  rcases (formed.numbered _ _).mp rightFound with ⟨rightIndex, rightPresent, rightType⟩
  have same := TokenType.ofIndex_injective (formed.index_lt leftPresent)
    (formed.index_lt rightPresent) (leftType.symm.trans rightType)
  rw [same, rightPresent] at leftPresent
  exact (Option.some.inj leftPresent).symm

/-- The type of a name has a place in the order of definition; the reserved types have none. -/
theorem index?_isSome {name : String} {type : TokenType}
    (found : vocabulary.tokenType? name = some type) : type.index?.isSome = true := by
  rcases (formed.numbered _ _).mp found with ⟨index, present, same⟩
  rw [same, TokenType.index?_ofIndex (formed.index_lt present)]
  rfl

theorem tokenType?_ne_endOfInput (name : String) :
    vocabulary.tokenType? name ≠ some TokenType.endOfInput := by
  intro found
  have impossible := formed.index?_isSome found
  rw [TokenType.index?_endOfInput] at impossible
  cases impossible

theorem tokenType?_ne_undefined (name : String) :
    vocabulary.tokenType? name ≠ some TokenType.undefined := by
  intro found
  have impossible := formed.index?_isSome found
  rw [TokenType.index?_undefined] at impossible
  cases impossible

theorem type_ne_endOfInput {name : String} {type : TokenType}
    (known : vocabulary.tokenType? name = some type) : type ≠ TokenType.endOfInput := by
  intro same
  rw [same] at known
  exact formed.tokenType?_ne_endOfInput name known

/-- Types are equal exactly when their names are. -/
theorem type_eq_iff {name other : String} {type otherType : TokenType}
    (known : vocabulary.tokenType? name = some type)
    (otherKnown : vocabulary.tokenType? other = some otherType) :
    type = otherType ↔ name = other := by
  constructor
  · intro same
    rw [same] at known
    exact formed.tokenType?_injective known otherKnown
  · intro same
    rw [same] at known
    exact Option.some.inj (known.symm.trans otherKnown)

/-- The type of a name is shown by this name. -/
theorem displayName?_eq {name : String} {type : TokenType}
    (known : vocabulary.tokenType? name = some type) :
    vocabulary.displayName? type = some name := by
  obtain ⟨index, present, same⟩ := (formed.numbered _ _).mp known
  unfold displayName?
  rw [if_neg (formed.type_ne_endOfInput known), same,
    TokenType.index?_ofIndex (formed.index_lt present)]
  exact present

theorem mem_tokens_iff (type : TokenType) (name : String) :
    (type, name) ∈ vocabulary.tokens ↔ vocabulary.tokenType? name = some type := by
  rw [formed.numbered]
  unfold tokens
  rw [List.mem_map]
  constructor
  · intro ⟨entry, member, same⟩
    have present := List.mk_mem_zipIdx_iff_getElem?.mp member
    cases same
    exact ⟨entry.2, present, rfl⟩
  · intro ⟨index, present, same⟩
    exact ⟨(name, index), List.mk_mem_zipIdx_iff_getElem?.mpr present, by rw [same]⟩

theorem mem_literals_iff (type : TokenType) (name : String) :
    (type, name) ∈ vocabulary.literals ↔
      vocabulary.tokenType? name = some type ∧ Literal.opensAsLiteral name = true := by
  unfold literals
  rw [List.mem_filter, formed.mem_tokens_iff]

omit formed in
/-- A definition answers a known name and changes nothing, or numbers a new one. -/
theorem define_cases {name : String} {type : TokenType} {extended : Vocabulary}
    (defined : vocabulary.define name = .ok (type, extended)) :
    (vocabulary.tokenType? name = some type ∧ extended = vocabulary) ∨
      (vocabulary.tokenType? name = none ∧
        vocabulary.names.length < TokenType.capacity ∧
        type = TokenType.ofIndex vocabulary.names.length ∧
        extended =
          { names := vocabulary.names ++ [name]
            byName := vocabulary.byName.insert name type }) := by
  unfold define at defined
  cases known : vocabulary.tokenType? name with
  | some old =>
      simp only [known, Except.ok.injEq, Prod.mk.injEq] at defined
      exact Or.inl ⟨congrArg some defined.1, defined.2.symm⟩
  | none =>
      simp only [known] at defined
      split at defined
      · rename_i room
        cases defined
        exact Or.inr ⟨rfl, room, rfl, rfl⟩
      · cases defined

theorem not_mem_names {name : String} (unknown : vocabulary.tokenType? name = none) :
    name ∉ vocabulary.names := by
  intro member
  rcases (formed.mem_names_iff name).mp member with ⟨type, found⟩
  rw [unknown] at found
  cases found

/-- A definition keeps a known name where it is and puts a new one at the end. -/
theorem define_names {name : String} {type : TokenType} {extended : Vocabulary}
    (defined : vocabulary.define name = .ok (type, extended)) :
    extended.names = if name ∈ vocabulary.names then vocabulary.names
      else vocabulary.names ++ [name] := by
  rcases define_cases defined with ⟨known, same⟩ | ⟨unknown, _, _, same⟩
  · rw [if_pos ((formed.mem_names_iff name).mpr ⟨type, known⟩), same]
  · rw [if_neg (formed.not_mem_names unknown), same]

/-- A definition keeps a vocabulary well formed: only a new name gets a new number. -/
theorem define {name : String} {type : TokenType} {extended : Vocabulary}
    (defined : vocabulary.define name = .ok (type, extended)) : extended.WellFormed := by
  rcases define_cases defined with ⟨_, same⟩ | ⟨unknown, room, number, same⟩
  · rw [same]
    exact formed
  · have fresh := formed.not_mem_names unknown
    rw [same]
    refine ⟨?_, ?_, ?_⟩
    · apply List.nodup_append.mpr
      refine ⟨formed.distinct, List.pairwise_singleton _ _, ?_⟩
      intro old member new single equal
      rw [equal, List.mem_singleton.mp single] at member
      exact fresh member
    · rw [List.length_append, List.length_singleton]
      exact room
    · intro other found
      unfold tokenType?
      rw [NameMap.find?_insert]
      by_cases new : other = name
      · rw [if_pos new, new, number]
        constructor
        · intro equal
          exact ⟨vocabulary.names.length, List.getElem?_concat_length,
            (Option.some.inj equal).symm⟩
        · intro ⟨index, present, equal⟩
          rcases getElem?_concat_cases present with old | ⟨atEnd, _⟩
          · exact absurd (List.mem_of_getElem? old) fresh
          · rw [equal, atEnd]
      · rw [if_neg new]
        refine (formed.numbered other found).trans ?_
        constructor
        · intro ⟨index, present, equal⟩
          refine ⟨index, ?_, equal⟩
          rw [List.getElem?_append_left (List.getElem?_eq_some_iff.mp present).1]
          exact present
        · intro ⟨index, present, equal⟩
          rcases getElem?_concat_cases present with old | ⟨_, last⟩
          · exact ⟨index, old, equal⟩
          · exact absurd last new

end WellFormed

/-! ### Many definitions -/

theorem defineAll_cons_cases {vocabulary extended : Vocabulary} {name : String}
    {rest : List String} (defined : vocabulary.defineAll (name :: rest) = .ok extended) :
    ∃ type middle, vocabulary.define name = .ok (type, middle) ∧
      middle.defineAll rest = .ok extended := by
  rw [defineAll] at defined
  split at defined
  · rename_i type middle first
    exact ⟨type, middle, first, defined⟩
  · cases defined

/-- A run of definitions keeps a vocabulary well formed and defines the names it was given. -/
theorem WellFormed.defineAll {vocabulary extended : Vocabulary} {names : List String}
    (formed : vocabulary.WellFormed) (defined : vocabulary.defineAll names = .ok extended) :
    extended.WellFormed ∧
      ∀ name, name ∈ extended.names ↔ name ∈ vocabulary.names ∨ name ∈ names := by
  induction names generalizing vocabulary with
  | nil =>
      cases defined
      exact ⟨formed, fun name => by simp⟩
  | cons name rest ih =>
      obtain ⟨type, middle, first, later⟩ := defineAll_cons_cases defined
      obtain ⟨kept, members⟩ := ih (formed.define first) later
      refine ⟨kept, ?_⟩
      intro other
      rw [members, formed.define_names first, List.mem_cons]
      split
      · rename_i known
        constructor
        · intro either
          exact either.imp_right Or.inr
        · intro either
          rcases either with old | new | more
          · exact Or.inl old
          · exact Or.inl (new ▸ known)
          · exact Or.inr more
      · rw [List.mem_append, List.mem_singleton, or_assoc]

theorem wellFormed_of_ofNames {names : List String} {vocabulary : Vocabulary}
    (defined : ofNames names = .ok vocabulary) : vocabulary.WellFormed :=
  (wellFormed_empty.defineAll defined).1

theorem mem_names_ofNames_iff {names : List String} {vocabulary : Vocabulary}
    (defined : ofNames names = .ok vocabulary) (name : String) :
    name ∈ vocabulary.names ↔ name ∈ names := by
  rw [(wellFormed_empty.defineAll defined).2 name]
  exact or_iff_right List.not_mem_nil

end Vocabulary

end LiteralGrammar
