/-
What is read does not depend on the wording.

A reader looks at the known parts of a record only, each of which must be there
once.  Where two values say the same, either both lack a part or their parts
say the same, so by going through the records from the innermost outwards both
are read alike.
-/

import LiteralGrammar.Cache.Wording
import LiteralGrammar.Proofs.Cache.RoundTrip
import Mathlib.Data.List.Perm.Basic

namespace LiteralGrammar.Cache

open Json

/-! ### Parts of records that say the same -/

theorem field?_of_forall₂ {same : Json → Json → Prop} {left right : List (String × Json)}
    {name : String}
    (alike : List.Forall₂ (fun leftField rightField => same leftField.2 rightField.2)
      (left.filter (fun field => field.1 = name)) (right.filter (fun field => field.1 = name))) :
    (field? left name = none ∧ field? right name = none) ∨
      ∃ leftPart rightPart, field? left name = some leftPart ∧
        field? right name = some rightPart ∧ same leftPart rightPart := by
  unfold field?
  generalize left.filter (fun field => field.1 = name) = leftFields at alike ⊢
  generalize right.filter (fun field => field.1 = name) = rightFields at alike ⊢
  cases alike with
  | nil => exact Or.inl ⟨rfl, rfl⟩
  | cons first rest =>
      cases rest with
      | nil => exact Or.inr ⟨_, _, rfl, rfl, first⟩
      | cons second more => exact Or.inl ⟨rfl, rfl⟩

theorem fields_of_known {parts : List Part} {left right : List (String × Json)}
    (known : ∀ part ∈ parts,
      List.Forall₂ (fun leftField rightField => part.2 leftField.2 rightField.2)
        (left.filter (fun field => field.1 = part.1))
        (right.filter (fun field => field.1 = part.1))) :
    ((parts.map Prod.fst).mapM (field? left) = none ∧
        (parts.map Prod.fst).mapM (field? right) = none) ∨
      ∃ pairs, (parts.map Prod.fst).mapM (field? left) = some (pairs.map Prod.fst) ∧
        (parts.map Prod.fst).mapM (field? right) = some (pairs.map Prod.snd) ∧
        List.Forall₂ (fun (part : Part) pair => part.2 pair.1 pair.2) parts pairs := by
  induction parts with
  | nil => exact Or.inr ⟨[], rfl, rfl, List.Forall₂.nil⟩
  | cons part rest ih =>
      obtain ⟨here, later⟩ := List.forall_mem_cons.mp known
      simp only [List.map_cons, List.mapM_cons]
      rcases field?_of_forall₂ here with
        ⟨leftNone, rightNone⟩ | ⟨leftPart, rightPart, leftFound, rightFound, same⟩
      · exact Or.inl ⟨by rw [leftNone]; rfl, by rw [rightNone]; rfl⟩
      -- One missing part spoils the record, wherever it would stand.
      · rcases ih later with ⟨leftNone, rightNone⟩ | ⟨pairs, leftParts, rightParts, pairsAlike⟩
        · exact Or.inl ⟨by rw [leftFound, leftNone]; rfl, by rw [rightFound, rightNone]; rfl⟩
        · refine Or.inr ⟨(leftPart, rightPart) :: pairs, ?_, ?_, List.Forall₂.cons same pairsAlike⟩
          · rw [leftFound, leftParts]
            rfl
          · rw [rightFound, rightParts]
            rfl

/-- Records that say the same are equal, both unreadable, or have parts that say the same. -/
theorem SameRecord.parts?_cases {parts : List Part} {left right : Json}
    (alike : SameRecord parts left right) :
    left = right ∨
      (left.parts? (parts.map Prod.fst) = none ∧ right.parts? (parts.map Prod.fst) = none) ∨
      ∃ pairs, left.parts? (parts.map Prod.fst) = some (pairs.map Prod.fst) ∧
        right.parts? (parts.map Prod.fst) = some (pairs.map Prod.snd) ∧
        List.Forall₂ (fun (part : Part) pair => part.2 pair.1 pair.2) parts pairs := by
  cases alike with
  | refl => exact Or.inl rfl
  | object known => exact Or.inr (fields_of_known known)
  | @array pairs known =>
      have lengths : pairs.length = parts.length := known.length_eq.symm
      refine Or.inr (Or.inr ⟨pairs, ?_, ?_, known⟩)
      · exact parts?_array_eq_some_iff.mpr ⟨by simp only [List.length_map, lengths], rfl⟩
      · exact parts?_array_eq_some_iff.mpr ⟨by simp only [List.length_map, lengths], rfl⟩

/-- A reader that takes a record by its parts reads records alike that say the same. -/
theorem SameRecord.read_eq {Value : Type} {reader : Json → Option Value} {parts : List Part}
    {left right : Json}
    (missing : ∀ json, json.parts? (parts.map Prod.fst) = none → reader json = none)
    (respects : ∀ pairs, left.parts? (parts.map Prod.fst) = some (pairs.map Prod.fst) →
      right.parts? (parts.map Prod.fst) = some (pairs.map Prod.snd) →
      List.Forall₂ (fun (part : Part) pair => part.2 pair.1 pair.2) parts pairs →
      reader left = reader right)
    (alike : SameRecord parts left right) : reader left = reader right := by
  rcases alike.parts?_cases with
    same | ⟨leftNone, rightNone⟩ | ⟨pairs, leftParts, rightParts, known⟩
  · rw [same]
  · rw [missing left leftNone, missing right rightNone]
  · exact respects pairs leftParts rightParts known

theorem SameList.read_eq {Value : Type} {reader : Json → Option Value}
    {same : Json → Json → Prop}
    (respects : ∀ left right, same left right → reader left = reader right) {left right : Json}
    (alike : SameList same left right) : readList reader left = readList reader right := by
  cases alike with
  | refl => rfl
  | array members =>
      change List.mapM reader _ = List.mapM reader _
      induction members with
      | nil => rfl
      | cons here _ ih => rw [List.mapM_cons, List.mapM_cons, respects _ _ here, ih]

theorem SameNames.read_eq {left right : Json} (alike : SameNames left right) :
    (readList text? left).map ExceptionSet.ofNames =
      (readList text? right).map ExceptionSet.ofNames := by
  cases alike with
  | refl => rfl
  | @array leftNames rightNames members =>
      change (readList text? (writeList .text leftNames)).map _ =
        (readList text? (writeList .text rightNames)).map _
      rw [readTexts_write, readTexts_write, Option.map_some, Option.map_some,
        ExceptionSet.ofNames_eq_of_mem_iff members]

theorem mapM_eq_some_of_perm {Item Value : Type} {reader : Item → Option Value}
    {left right : List Item} (permuted : left.Perm right) {values : List Value}
    (found : left.mapM reader = some values) :
    ∃ others, right.mapM reader = some others ∧ values.Perm others := by
  obtain ⟨others, pairs, valuesPermuted⟩ :=
    List.perm_comp_forall₂ permuted.symm (mapM_eq_some_iff.mp found)
  exact ⟨others, mapM_eq_some_iff.mpr pairs, valuesPermuted.symm⟩

theorem map_fst_of_readNamedType {fields : List (String × Json)}
    {entries : List (String × TokenType)} (found : fields.mapM readNamedType = some entries) :
    entries.map Prod.fst = fields.map Prod.fst := by
  rw [mapM_eq_some_iff] at found
  induction found with
  | nil => rfl
  | cons here _ ih =>
      obtain ⟨type, _, rfl⟩ := Option.map_eq_some_iff.mp here
      rw [List.map_cons, List.map_cons, ih]

theorem readNameMap_of_perm {left right : List (String × Json)}
    (distinct : (left.map Prod.fst).Nodup) (permuted : left.Perm right)
    {map : NameMap TokenType} (found : readNameMap (.object left) = some map) :
    readNameMap (.object right) = some map := by
  obtain ⟨entries, entriesFound, same⟩ := Option.bind_eq_some_iff.mp found
  obtain ⟨others, othersFound, entriesPermuted⟩ := mapM_eq_some_of_perm permuted entriesFound
  have entriesDistinct : (entries.map Prod.fst).Nodup := by
    rw [map_fst_of_readNamedType entriesFound]
    exact distinct
  have sameMap : NameMap.ofList others = map := by
    rw [← NameMap.ofList_eq_of_perm entriesPermuted entriesDistinct]
    exact Option.some.inj same
  exact Option.bind_eq_some_iff.mpr ⟨others, othersFound, congrArg some sameMap⟩

theorem SameTable.read_eq {left right : Json} (alike : SameTable left right) :
    readNameMap left = readNameMap right := by
  cases alike with
  | refl => rfl
  | object distinct permuted =>
      apply Option.ext
      intro map
      constructor
      · exact readNameMap_of_perm distinct permuted
      · exact readNameMap_of_perm ((permuted.map Prod.fst).nodup_iff.mp distinct) permuted.symm

/-! ### Records, from the innermost outwards -/

theorem readElement_eq {left right : Json} (alike : SameElement left right) :
    readElement left = readElement right := by
  refine SameRecord.read_eq ?_ ?_ alike
  · intro json absent
    rw [readElement, show json.parts? ["literal", "repeat"] = none from absent]
  · intro pairs leftParts rightParts known
    simp only [List.forall₂_cons_left_iff, List.forall₂_nil_left_iff] at known
    obtain ⟨literal, _, literals, ⟨repetition, _, repetitions, rfl, rfl⟩, rfl⟩ := known
    rw [readElement_of_parts leftParts, readElement_of_parts rightParts, literals, repetitions]

theorem readAlternative_eq {left right : Json} (alike : SameAlternative left right) :
    readAlternative left = readAlternative right := by
  refine SameRecord.read_eq ?_ ?_ alike
  · intro json absent
    rw [readAlternative, show json.parts? ["elements"] = none from absent]
  · intro pairs leftParts rightParts known
    simp only [List.forall₂_cons_left_iff, List.forall₂_nil_left_iff] at known
    obtain ⟨elements, _, members, rfl, rfl⟩ := known
    rw [readAlternative_of_parts leftParts, readAlternative_of_parts rightParts]
    exact SameList.read_eq (fun _ _ inner => readElement_eq inner) members

theorem readExceptions_eq {left right : Json} (alike : SameExceptions left right) :
    readExceptions left = readExceptions right := by
  refine SameRecord.read_eq ?_ ?_ alike
  · intro json absent
    rw [readExceptions, show json.parts? ["throws"] = none from absent]
  · intro pairs leftParts rightParts known
    simp only [List.forall₂_cons_left_iff, List.forall₂_nil_left_iff] at known
    obtain ⟨names, _, members, rfl, rfl⟩ := known
    rw [readExceptions_of_parts leftParts, readExceptions_of_parts rightParts]
    exact SameNames.read_eq members

theorem readRule_eq {left right : Json} (alike : SameRule left right) :
    readRule left = readRule right := by
  refine SameRecord.read_eq ?_ ?_ alike
  · intro json absent
    rw [readRule, show json.parts? ["name", "alternatives", "metadata"] = none from absent]
  · intro pairs leftParts rightParts known
    simp only [List.forall₂_cons_left_iff, List.forall₂_nil_left_iff] at known
    obtain ⟨name, _, names, ⟨alternatives, _, members, ⟨metadata, _, exceptions, rfl, rfl⟩, rfl⟩,
      rfl⟩ := known
    have sameAlternatives := SameList.read_eq (fun _ _ inner => readAlternative_eq inner) members
    rw [readRule_of_parts leftParts, readRule_of_parts rightParts, names, sameAlternatives,
      readExceptions_eq exceptions]

example :
    readRule (.object [("metadata", .object [("throws", .array [.text "B", .text "A", .text "B"])]),
      ("line", .decimal 15 (-1)), ("name", .text "start"), ("alternatives", .array [])]) =
      some { name := "start", alternatives := [], exceptions := ExceptionSet.ofNames ["A", "B"] } :=
  rfl

theorem readVocabulary_eq {left right : Json} (alike : SameVocabulary left right) :
    readVocabulary left = readVocabulary right := by
  refine SameRecord.read_eq ?_ ?_ alike
  · intro json absent
    rw [readVocabulary, show json.parts? ["names", "by_name"] = none from absent]
  · intro pairs leftParts rightParts known
    simp only [List.forall₂_cons_left_iff, List.forall₂_nil_left_iff] at known
    obtain ⟨names, _, sameNames, ⟨byName, _, sameByName, rfl, rfl⟩, rfl⟩ := known
    rw [readVocabulary_of_parts leftParts, readVocabulary_of_parts rightParts, sameNames,
      SameTable.read_eq sameByName]

theorem read_of_no_parts {json : Json}
    (absent : json.parts? ["name", "kind", "rules", "delegates", "vocabulary"] = none) :
    read json = none := by
  cases json with
  | object _ | array _ =>
      rw [read, readShell, absent]
      rfl
  | null | boolean _ | number _ | decimal _ _ | text _ => rfl

/-- Values that say the same at any depth are read as the same grammar, or neither is read. -/
theorem read_eq_of_sameGrammar (depth : Nat) {left right : Json}
    (alike : SameGrammar depth left right) : read left = read right := by
  induction depth generalizing left right with
  | zero => exact congrArg read alike
  | succ depth ih =>
      refine SameRecord.read_eq ?_ ?_ alike
      · intro json absent
        exact read_of_no_parts absent
      · intro pairs leftParts rightParts known
        simp only [List.forall₂_cons_left_iff, List.forall₂_nil_left_iff] at known
        obtain ⟨name, _, names, ⟨kind, _, kinds, ⟨rules, _, ruleLists, ⟨delegates, _, imports,
          ⟨vocabulary, _, vocabularies, rfl, rfl⟩, rfl⟩, rfl⟩, rfl⟩, rfl⟩ := known
        have sameRules := SameList.read_eq (fun _ _ inner => readRule_eq inner) ruleLists
        have sameDelegates := SameList.read_eq (fun _ _ inner => ih inner) imports
        rw [read_of_parts leftParts, read_of_parts rightParts, names, kinds, sameRules,
          readVocabulary_eq vocabularies, sameDelegates]

/-! ### Fields that a record does not know -/

theorem SameRecord.with_unknown {parts : List Part} {name : String}
    (reflexive : ∀ part ∈ parts, ∀ json, part.2 json json)
    (unknown : ∀ part ∈ parts, name ≠ part.1) (front back : List (String × Json)) (value : Json) :
    SameRecord parts (.object (front ++ (name, value) :: back)) (.object (front ++ back)) := by
  apply SameRecord.object
  intro part member
  have passed : ¬decide (name = part.1) = true := by simpa using unknown part member
  have filtered : ((name, value) :: back).filter (fun field => field.1 = part.1) =
      back.filter (fun field => field.1 = part.1) := List.filter_cons_of_neg passed
  rw [List.filter_append, List.filter_append, filtered]
  exact List.forall₂_same.mpr (fun field _ => reflexive part member field.2)

/-- A field that a grammar does not know is passed over. -/
theorem read_with_unknown {name : String}
    (unknown : name ∉ ["name", "kind", "rules", "delegates", "vocabulary"])
    (front back : List (String × Json)) (value : Json) :
    read (.object (front ++ (name, value) :: back)) = read (.object (front ++ back)) := by
  apply read_eq_of_sameGrammar 1
  apply SameRecord.with_unknown
  · intro part member json
    simp only [List.mem_cons, List.not_mem_nil, or_false] at member
    rcases member with rfl | rfl | rfl | rfl | rfl
    · rfl
    · rfl
    · exact SameList.refl json
    · exact SameList.refl json
    · exact SameRecord.refl json
  · intro part member same
    exact unknown (same ▸ List.mem_map_of_mem (f := Prod.fst) member)

end LiteralGrammar.Cache
