/-
The words of an alternative's slots, read as the texts of its elements.

Matching knows types only and a phrase is a text.  A literal of the lexer stands
between the two: it has the type of an element's slot exactly when the
vocabulary knows the element and the literal's characters are its value.
-/

import LiteralGrammar.Proofs.Token.Stream
import LiteralGrammar.Rule.Phrase

namespace LiteralGrammar

/-- Whether the literal of an element has a type of its own. -/
def Vocabulary.knows (vocabulary : Vocabulary) (element : Element) : Bool :=
  element.literal ∈ vocabulary.names

/-- Whether the literal of an element stands for at least one character. -/
def Element.Visible (element : Element) : Prop :=
  ∃ value, element.value = .ok value ∧ value ≠ ""

/-- Elements that may be left out can be put back anywhere. -/
theorem Phrase.of_filter {keep : Element → Bool} {alternative : Alternative} {text : List Char}
    (phrase : Phrase (alternative.filter keep) text)
    (dropped : ∀ element ∈ alternative, keep element = false →
      element.repetition.isOptional = true) : Phrase alternative text := by
  induction alternative generalizing text with
  | nil => exact phrase
  | cons element rest ih =>
      rcases List.forall_mem_cons.mp dropped with ⟨here, later⟩
      cases kept : keep element with
      | false =>
          rw [List.filter_cons_of_neg (by simp [kept])] at phrase
          exact Phrase.skip element (here kept) (ih phrase later)
      | true =>
          rw [List.filter_cons_of_pos kept] at phrase
          cases phrase with
          | skip _ optional others => exact Phrase.skip element optional (ih others later)
          | repeated _ value count decoded allowed others =>
              exact Phrase.repeated element value count decoded allowed (ih others later)

section

variable {vocabulary : Vocabulary} {lexer : Lexer}
variable (formed : vocabulary.WellFormed) (made : Lexer.ofVocabulary vocabulary = .ok lexer)

include formed made

/-! ### Literals of one element -/

/-- An unknown element has the type that no literal is given, so it shows nothing. -/
theorem slot_literal_mem_iff (element : Element) (text : List Char) :
    ((Slot.ofElement vocabulary element).type, text) ∈ lexer.literals ↔
      vocabulary.knows element = true ∧
        ∃ value, element.value = .ok value ∧ value ≠ "" ∧ text = value.toList := by
  rw [Lexer.mem_literals_iff formed made]
  change _ ∧ (∃ name value, vocabulary.tokenType? name =
    some ((vocabulary.tokenType? element.literal).getD TokenType.undefined) ∧ _) ↔ _
  constructor
  · intro ⟨solid, name, value, found, read, same⟩
    cases known : vocabulary.tokenType? element.literal with
    | none =>
        rw [known] at found
        exact absurd found (formed.tokenType?_ne_undefined name)
    | some type =>
        rw [known] at found
        have literal := formed.tokenType?_injective found known
        rw [literal] at read
        refine ⟨decide_eq_true ((formed.mem_names_iff _).mpr ⟨type, known⟩), value, read, ?_,
          same⟩
        intro empty
        rw [same, empty] at solid
        exact solid rfl
  · intro ⟨knows, value, read, solid, same⟩
    rcases (formed.mem_names_iff _).mp (of_decide_eq_true knows) with ⟨type, known⟩
    refine ⟨?_, element.literal, value, by rw [known, Option.getD_some], read, same⟩
    rw [same]
    exact fun empty => solid (String.toList_eq_nil_iff.mp empty)

/-- A run of literals of one slot's type shows the element's value as often as it is long. -/
theorem run_text {element : Element} {run : List (TokenType × List Char)} {count : Nat}
    (shown : ∀ literal ∈ run, literal ∈ lexer.literals)
    (types : run.map Prod.fst =
      List.replicate (count + 1) (Slot.ofElement vocabulary element).type) :
    vocabulary.knows element = true ∧ ∃ value, element.value = .ok value ∧ value ≠ "" ∧
      run.flatMap Prod.snd = (List.replicate (count + 1) value.toList).flatten := by
  rcases List.eq_replicate_iff.mp types with ⟨length, same⟩
  rw [List.length_map] at length
  have each {literal : TokenType × List Char} (member : literal ∈ run) :
      vocabulary.knows element = true ∧
        ∃ value, element.value = .ok value ∧ value ≠ "" ∧ literal.2 = value.toList := by
    rw [← slot_literal_mem_iff formed made, ← same _ (List.mem_map_of_mem member)]
    exact shown literal member
  obtain ⟨first, present⟩ := List.exists_mem_of_length_eq_add_one length
  obtain ⟨knows, value, read, solid, _⟩ := each present
  refine ⟨knows, value, read, solid, ?_⟩
  rw [List.flatMap_def]
  congr 1
  apply List.eq_replicate_iff.mpr
  refine ⟨by rw [List.length_map, length], ?_⟩
  intro text member
  rcases List.mem_map.mp member with ⟨literal, inside, shows⟩
  obtain ⟨_, other, otherRead, _, same⟩ := each inside
  rw [read] at otherRead
  rw [← shows, same, Except.ok.inj otherRead]

/-! ### Literals of an alternative -/

/-- What literals of the lexer show is a phrase of the known elements if their types are a word,
and an element that must match is then known and visible. -/
theorem phrase_of_word {alternative : Alternative} {shown : List (TokenType × List Char)}
    (present : ∀ literal ∈ shown, literal ∈ lexer.literals)
    (word : Decision.Word (alternative.map (Slot.ofElement vocabulary))
      (shown.map Prod.fst)) :
    Phrase (alternative.filter vocabulary.knows) (shown.flatMap Prod.snd) ∧
      ∀ element ∈ alternative, element.repetition.isOptional = false →
        vocabulary.knows element = true ∧ element.Visible := by
  induction alternative generalizing shown with
  | nil =>
      rw [List.map_nil, Decision.word_nil_iff, List.map_eq_nil_iff] at word
      rw [word]
      exact ⟨Phrase.nil, List.forall_mem_nil _⟩
  | cons element rest ih =>
      rcases (Decision.word_cons_iff _ _ _).mp word with ⟨count, later, allowed, laterWord, types⟩
      rcases List.map_eq_append_iff.mp types with ⟨run, others, split, runTypes, otherTypes⟩
      rw [split] at present ⊢
      rcases List.forall_mem_append.mp present with ⟨runPresent, othersPresent⟩
      rw [← otherTypes] at laterWord
      obtain ⟨phrase, needed⟩ := ih othersPresent laterWord
      rw [List.flatMap_append, List.forall_mem_cons]
      cases count with
      | zero =>
          have optional : element.repetition.isOptional = true :=
            (Repetition.allows_zero_iff _).mp allowed
          rw [List.replicate_zero, List.map_eq_nil_iff] at runTypes
          -- an element that shows nothing may be unknown, and has then been filtered out
          rw [runTypes, List.flatMap_nil, List.nil_append, List.filter_cons]
          refine ⟨?_, ?_, needed⟩
          · split
            · exact Phrase.skip element optional phrase
            · exact phrase
          · intro mandatory
            rw [optional] at mandatory
            cases mandatory
      | succ count =>
          obtain ⟨knows, value, read, solid, text⟩ := run_text formed made runPresent runTypes
          rw [text, List.filter_cons_of_pos knows]
          exact ⟨Phrase.repeated element value count read allowed phrase,
            fun _ => ⟨knows, value, read, solid⟩, needed⟩

/-- A phrase of known and visible elements is shown by literals of the lexer whose types are a
word. -/
theorem word_of_phrase {alternative : Alternative} {text : List Char}
    (known : ∀ element ∈ alternative, vocabulary.knows element = true)
    (visible : ∀ element ∈ alternative, element.Visible) (phrase : Phrase alternative text) :
    ∃ shown : List (TokenType × List Char),
      (∀ literal ∈ shown, literal ∈ lexer.literals) ∧ shown.flatMap Prod.snd = text ∧
      Decision.Word (alternative.map (Slot.ofElement vocabulary)) (shown.map Prod.fst) := by
  induction phrase with
  | nil => exact ⟨[], List.forall_mem_nil _, rfl, Decision.Word.nil⟩
  | skip element optional _ ih =>
      obtain ⟨shown, present, same, word⟩ := ih (List.forall_mem_cons.mp known).2
        (List.forall_mem_cons.mp visible).2
      exact ⟨shown, present, same,
        Decision.Word.cons _ 0 ((Repetition.allows_zero_iff _).mpr optional) word⟩
  | repeated element value count decoded allowed _ ih =>
      rcases List.forall_mem_cons.mp known with ⟨knows, othersKnown⟩
      rcases List.forall_mem_cons.mp visible with ⟨⟨other, read, solid⟩, othersVisible⟩
      obtain ⟨shown, present, same, word⟩ := ih othersKnown othersVisible
      rw [decoded] at read
      cases read
      let literal := ((Slot.ofElement vocabulary element).type, value.toList)
      have inside : literal ∈ lexer.literals :=
        (slot_literal_mem_iff formed made element _).mpr ⟨knows, value, decoded, solid, rfl⟩
      refine ⟨List.replicate (count + 1) literal ++ shown, ?_, ?_, ?_⟩
      · intro next member
        rcases List.mem_append.mp member with here | later
        · rw [List.eq_of_mem_replicate here]
          exact inside
        · exact present next later
      · rw [List.flatMap_append, List.flatMap_replicate, same]
      · rw [List.map_append, List.map_replicate]
        exact Decision.Word.cons _ _ allowed word

end

end LiteralGrammar
