/-
Places in an alternative that a sequence of types can lead to.

A place is a number of slots left behind, and whether the slot ahead has begun
to loop.  Some word starts with the types exactly when they lead to a place,
and they are a word exactly when they lead to the end.
-/

import LiteralGrammar.Decision.Language

namespace LiteralGrammar

/-- A stream whose last token, and no other, marks the end of the input. -/
structure TokenStream.Ended (stream : TokenStream) : Prop where
  body : ∀ token ∈ stream.body, token.type ≠ TokenType.endOfInput
  last : stream.last.type = TokenType.endOfInput

theorem TokenStream.Ended.map_type_tokens {stream : TokenStream} (ended : stream.Ended) :
    stream.tokens.map Token.type = stream.types ++ [TokenType.endOfInput] := by
  unfold tokens types
  rw [List.map_append, List.map_singleton, ended.last]

namespace Repetition

/-- The fewest matches that are allowed. -/
def least : Repetition → Nat
  | .zeroOrMore => 0
  | _ => 1

theorem least_eq (repetition : Repetition) :
    repetition.least = if repetition.isOptional then 0 else 1 := by
  cases repetition <;> rfl

theorem allows_least (repetition : Repetition) : repetition.Allows repetition.least := by
  cases repetition <;> simp [Allows, least]

theorem least_le_of_allows {repetition : Repetition} {count : Nat}
    (allowed : repetition.Allows count) : repetition.least ≤ count := by
  cases repetition with
  | once => exact Nat.le_of_eq allowed.symm
  | zeroOrMore => exact Nat.zero_le count
  | oneOrMore => exact allowed

end Repetition

namespace Decision

/-! ### Words of a list of slots -/

theorem word_append_iff (left right : List Slot) (word : List TokenType) :
    Word (left ++ right) word ↔
      ∃ leftWord rightWord, Word left leftWord ∧ Word right rightWord ∧
        word = leftWord ++ rightWord := by
  constructor
  · intro given
    induction left generalizing word with
    | nil => exact ⟨[], word, Word.nil, given, rfl⟩
    | cons slot rest ih =>
        rw [List.cons_append] at given
        rcases (word_cons_iff _ _ _).mp given with ⟨count, later, allowed, laterWord, same⟩
        obtain ⟨leftWord, rightWord, leftGiven, rightGiven, split⟩ := ih later laterWord
        refine ⟨List.replicate count slot.type ++ leftWord, rightWord,
          Word.cons slot count allowed leftGiven, rightGiven, ?_⟩
        rw [same, split, List.append_assoc]
  · intro ⟨leftWord, rightWord, leftGiven, rightGiven, same⟩
    rw [same]
    exact leftGiven.append rightGiven

theorem word_take_succ_iff {slots : List Slot} {position : Nat} {slot : Slot}
    (present : slots[position]? = some slot) (word : List TokenType) :
    Word (slots.take (position + 1)) word ↔
      ∃ earlier count, Word (slots.take position) earlier ∧ slot.repetition.Allows count ∧
        word = earlier ++ List.replicate count slot.type := by
  rw [List.take_add_one, present, Option.toList_some, word_append_iff]
  constructor
  · intro ⟨earlier, later, earlierGiven, laterGiven, same⟩
    rcases (word_cons_iff _ _ _).mp laterGiven with ⟨count, ending, allowed, endingGiven, split⟩
    rw [(word_nil_iff ending).mp endingGiven, List.append_nil] at split
    exact ⟨earlier, count, earlierGiven, allowed, by rw [same, split]⟩
  · intro ⟨earlier, count, earlierGiven, allowed, same⟩
    refine ⟨earlier, List.replicate count slot.type ++ [], earlierGiven,
      Word.cons slot count allowed Word.nil, ?_⟩
    rw [same, List.append_nil]

/-- A word in which every slot matches as seldom as it may. -/
def shortestWord (slots : List Slot) : List TokenType :=
  slots.flatMap (fun slot => List.replicate slot.repetition.least slot.type)

theorem shortestWord_cons (slot : Slot) (rest : List Slot) :
    shortestWord (slot :: rest) =
      List.replicate slot.repetition.least slot.type ++ shortestWord rest :=
  List.flatMap_cons

theorem word_shortestWord (slots : List Slot) : Word slots (shortestWord slots) := by
  induction slots with
  | nil => exact Word.nil
  | cons slot rest ih =>
      rw [shortestWord_cons]
      exact Word.cons slot _ slot.repetition.allows_least ih

/-- Every type of a word belongs to a slot. -/
theorem exists_slot_of_mem_word {slots : List Slot} {word : List TokenType} {type : TokenType}
    (given : Word slots word) (member : type ∈ word) : ∃ slot ∈ slots, slot.type = type := by
  induction given with
  | nil => cases member
  | cons slot count _ _ ih =>
      rcases List.mem_append.mp member with repeated | later
      · exact ⟨slot, List.mem_cons_self, (List.eq_of_mem_replicate repeated).symm⟩
      · obtain ⟨other, present, same⟩ := ih later
        exact ⟨other, List.mem_cons_of_mem slot present, same⟩

/-! ### The end of the input -/

/-- Slots of which none asks for the end of the input. -/
def EndFree (slots : List Slot) : Prop :=
  ∀ slot ∈ slots, slot.type ≠ TokenType.endOfInput

instance (slots : List Slot) : Decidable (EndFree slots) :=
  inferInstanceAs (Decidable (∀ slot ∈ slots, slot.type ≠ TokenType.endOfInput))

/-- What starts with tokens up to the end mark starts no word of slots that are free of it. -/
theorem EndFree.not_viable_end {slots : List Slot} (free : EndFree slots)
    (types : List TokenType) : ¬Viable slots (types ++ [TokenType.endOfInput]) := by
  intro ⟨suffix, word⟩
  obtain ⟨slot, present, same⟩ := exists_slot_of_mem_word word
    (List.mem_append_left suffix (List.mem_append_right types List.mem_cons_self))
  exact free slot present same

/-! ### Places that some types lead to -/

/-- Whether some types can lead to a place: they are a word of the slots behind it, followed by
at least one match of the slot ahead if that has begun to loop. -/
def Stands (slots : List Slot) (types : List TokenType) (position : Nat) : Bool → Prop
  | false => position ≤ slots.length ∧ Word (slots.take position) types
  | true => ∃ slot earlier count, slots[position]? = some slot ∧
      slot.repetition.loops = true ∧ Word (slots.take position) earlier ∧
      types = earlier ++ List.replicate (count + 1) slot.type

theorem stands_start (slots : List Slot) : Stands slots [] 0 false :=
  ⟨Nat.zero_le _, Word.nil⟩

/-- A place with a slot ahead that can be left leads past the slot on the same types. -/
theorem Stands.leave {slots : List Slot} {types : List TokenType} {position : Nat}
    {looping : Bool} {slot : Slot} (stands : Stands slots types position looping)
    (present : slots[position]? = some slot) (free : slot.canLeave looping = true) :
    Stands slots types (position + 1) false := by
  refine ⟨(List.getElem?_eq_some_iff.mp present).1, (word_take_succ_iff present types).mpr ?_⟩
  cases looping with
  | false =>
      have optional : slot.repetition.isOptional = true := by
        simpa [Slot.canLeave] using free
      exact ⟨types, 0, stands.2, (Repetition.allows_zero_iff _).mpr optional,
        (List.append_nil types).symm⟩
  | true =>
      obtain ⟨other, earlier, count, found, loops, given, same⟩ := stands
      rw [present] at found
      cases found
      exact ⟨earlier, count + 1, given, Repetition.allows_succ_of_loops loops count, same⟩

/-- Any place can be completed to a word of all slots. -/
theorem Stands.viable {slots : List Slot} {types : List TokenType} {position : Nat}
    {looping : Bool} (stands : Stands slots types position looping) : Viable slots types := by
  cases looping with
  | false =>
      refine ⟨shortestWord (slots.drop position), ?_⟩
      have whole := stands.2.append (word_shortestWord (slots.drop position))
      rwa [List.take_append_drop] at whole
  | true =>
      obtain ⟨slot, _, _, present, loops, _⟩ := id stands
      have left := stands.leave present (by simp [Slot.canLeave, loops])
      refine ⟨shortestWord (slots.drop (position + 1)), ?_⟩
      have whole := left.2.append (word_shortestWord (slots.drop (position + 1)))
      rwa [List.take_append_drop] at whole

theorem Stands.cons {slot : Slot} {rest : List Slot} {types : List TokenType} {position : Nat}
    {looping : Bool} {count : Nat} (allowed : slot.repetition.Allows count)
    (stands : Stands rest types position looping) :
    Stands (slot :: rest) (List.replicate count slot.type ++ types) (position + 1) looping := by
  cases looping with
  | false =>
      exact ⟨Nat.succ_le_succ stands.1, Word.cons slot count allowed stands.2⟩
  | true =>
      obtain ⟨other, earlier, more, present, loops, given, same⟩ := stands
      refine ⟨other, List.replicate count slot.type ++ earlier, more, present, loops,
        Word.cons slot count allowed given, ?_⟩
      rw [same, List.append_assoc]

theorem stands_replicate {slot : Slot} {rest : List Slot} {allowedCount count : Nat}
    (allowed : slot.repetition.Allows allowedCount) (within : count ≤ allowedCount) :
    ∃ position looping,
      Stands (slot :: rest) (List.replicate count slot.type) position looping := by
  cases count with
  | zero => exact ⟨0, false, stands_start _⟩
  | succ count =>
      by_cases loops : slot.repetition.loops = true
      · exact ⟨0, true, slot, [], count, rfl, loops, Word.nil, rfl⟩
      · have single := Repetition.eq_one_of_allows allowed loops
        have spare : count = 0 := by omega
        refine ⟨1, false, Nat.succ_le_succ (Nat.zero_le _), ?_⟩
        rw [spare]
        exact Word.cons slot 1 (Repetition.allows_one _) Word.nil

/-- Types that some word starts with lead to some place. -/
theorem stands_of_viable {slots : List Slot} {types : List TokenType}
    (viable : Viable slots types) : ∃ position looping, Stands slots types position looping := by
  induction slots generalizing types with
  | nil =>
      obtain ⟨suffix, word⟩ := viable
      have empty := List.append_eq_nil_iff.mp ((word_nil_iff _).mp word)
      rw [empty.1]
      exact ⟨0, false, stands_start []⟩
  | cons slot rest ih =>
      obtain ⟨suffix, word⟩ := viable
      rcases (word_cons_iff _ _ _).mp word with ⟨count, later, allowed, laterWord, same⟩
      -- the types end either among the matches of the first slot or after them
      rcases List.append_eq_append_iff.mp same with ⟨others, inside, _⟩ | ⟨others, after, split⟩
      · have repeated := List.append_eq_replicate_iff.mp inside.symm
        rw [repeated.2.1]
        exact stands_replicate allowed (by omega)
      · obtain ⟨position, looping, stands⟩ := ih ⟨suffix, by rwa [← split]⟩
        rw [after]
        exact ⟨position + 1, looping, stands.cons allowed⟩

theorem word_iff_stands (slots : List Slot) (types : List TokenType) :
    Word slots types ↔ ∃ looping, Stands slots types slots.length looping := by
  constructor
  · intro word
    exact ⟨false, Nat.le_refl _, by rwa [List.take_length]⟩
  · intro ⟨looping, stands⟩
    cases looping with
    | false =>
        have word := stands.2
        rwa [List.take_length] at word
    | true =>
        obtain ⟨slot, _, _, present, _⟩ := stands
        rw [List.getElem?_eq_none (Nat.le_refl _)] at present
        cases present

end Decision

end LiteralGrammar
