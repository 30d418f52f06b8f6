/-
The lexer against the description of longest literals.

The fold over the literals keeps the longest that fits and the earliest of
those; hence the pieces of an input are segments by longest literals.  Where no
value is a prefix of another, a sequence of values is cut into these values.
-/

import LiteralGrammar.Token.Segmentation
import Mathlib.Data.List.Induction

namespace LiteralGrammar

namespace Lexer

/-! ### The fold over the literals -/

/-- What a match must be after some literals have been looked at. -/
def Kept (literals : List (TokenType × List Char)) (input : List Char) :
    Option (TokenType × List Char) → Prop
  | none => ∀ literal ∈ literals, ¬literal.2 <+: input
  | some (type, text) => Longest { literals := literals } input type text

/-- A candidate that does not fit, or is no longer than the one kept, changes nothing. -/
theorem Longest.concat {literals : List (TokenType × List Char)} {input : List Char}
    {type : TokenType} {text : List Char} {candidate : TokenType × List Char}
    (longest : Longest { literals := literals } input type text)
    (weaker : candidate.2 <+: input → candidate.2.length ≤ text.length) :
    Longest { literals := literals ++ [candidate] } input type text := by
  obtain ⟨earlier, later, same, fits, bound, first⟩ := longest
  have split : literals = earlier ++ (type, text) :: later := same
  refine ⟨earlier, later ++ [candidate], ?_, fits, ?_, first⟩
  · change literals ++ [candidate] = _
    rw [split, List.append_assoc, List.cons_append]
  · intro other member otherFits
    rcases List.mem_append.mp member with old | new
    · exact bound other old otherFits
    · rw [List.mem_singleton.mp new] at otherFits ⊢
      exact weaker otherFits

/-- A candidate that fits and is longer than all before it takes over. -/
theorem longest_concat_self {literals : List (TokenType × List Char)} {input : List Char}
    {candidate : TokenType × List Char} (fits : candidate.2 <+: input)
    (longer : ∀ other ∈ literals, other.2 <+: input → other.2.length < candidate.2.length) :
    Longest { literals := literals ++ [candidate] } input candidate.1 candidate.2 := by
  refine ⟨literals, [], rfl, fits, ?_, ?_⟩
  · intro other member otherFits
    rcases List.mem_append.mp member with old | new
    · exact Nat.le_of_lt (longer other old otherFits)
    · exact Nat.le_of_eq (congrArg (fun literal => literal.2.length) (List.mem_singleton.mp new))
  · intro other member same
    have less := longer other member (same ▸ fits)
    rw [same] at less
    exact Nat.lt_irrefl _ less

theorem Kept.prefer {literals : List (TokenType × List Char)} {input : List Char}
    {best : Option (TokenType × List Char)} (kept : Kept literals input best)
    (candidate : TokenType × List Char) :
    Kept (literals ++ [candidate]) input (prefer input best candidate) := by
  unfold Lexer.prefer
  by_cases fits : candidate.2.isPrefixOf input = true
  · have isPrefix := List.isPrefixOf_iff_prefix.mp fits
    rw [if_pos fits]
    cases best with
    | none =>
        exact longest_concat_self isPrefix
          (fun other member otherFits => absurd otherFits (kept other member))
    | some old =>
        change Kept _ _ (if old.2.length < candidate.2.length then some candidate else some old)
        split
        · rename_i longer
          obtain ⟨_, _, _, _, bound, _⟩ := kept
          exact longest_concat_self isPrefix (fun other member otherFits =>
            Nat.lt_of_le_of_lt (bound other member otherFits) longer)
        · rename_i shorter
          exact Longest.concat kept (fun _ => Nat.le_of_not_lt shorter)
  · have misses : ¬candidate.2 <+: input := fun isPrefix =>
      fits (List.isPrefixOf_iff_prefix.mpr isPrefix)
    rw [if_neg fits]
    cases best with
    | none =>
        intro other member
        rcases List.mem_append.mp member with old | new
        · exact kept other old
        · rw [List.mem_singleton.mp new]
          exact misses
    | some old => exact Longest.concat kept (fun isPrefix => absurd isPrefix misses)

theorem kept_longestMatch? (lexer : Lexer) (input : List Char) :
    Kept lexer.literals input (lexer.longestMatch? input) := by
  unfold longestMatch?
  generalize lexer.literals = literals
  induction literals using List.reverseRecOn with
  | nil =>
      intro literal member
      cases member
  | append_singleton literals candidate ih =>
      rw [List.foldl_append]
      exact ih.prefer candidate

theorem longest_of_longestMatch? {lexer : Lexer} {input text : List Char} {type : TokenType}
    (found : lexer.longestMatch? input = some (type, text)) : lexer.Longest input type text := by
  have kept := kept_longestMatch? lexer input
  rw [found] at kept
  exact kept

theorem no_literal_of_longestMatch? {lexer : Lexer} {input : List Char}
    (missing : lexer.longestMatch? input = none) :
    ∀ literal ∈ lexer.literals, ¬literal.2 <+: input := by
  have kept := kept_longestMatch? lexer input
  rw [missing] at kept
  exact kept

theorem Longest.mem {lexer : Lexer} {input text : List Char} {type : TokenType}
    (longest : lexer.Longest input type text) : (type, text) ∈ lexer.literals := by
  obtain ⟨earlier, later, same, _⟩ := longest
  rw [same]
  exact List.mem_append_right earlier List.mem_cons_self

/-! ### Pieces of an input -/

/-- A lexer none of whose literals is without characters. -/
def Solid (lexer : Lexer) : Prop :=
  ∀ literal ∈ lexer.literals, literal.2 ≠ []

theorem pieces_append {lexer : Lexer} {type : TokenType} {text rest : List Char}
    (solid : text ≠ []) (found : lexer.longestMatch? (text ++ rest) = some (type, text)) :
    lexer.pieces (text ++ rest) = .token type text :: lexer.pieces rest := by
  cases text with
  | nil => exact absurd rfl solid
  | cons head tail =>
      rw [List.cons_append] at found ⊢
      rw [pieces_token found, List.length_cons, Nat.add_sub_cancel, List.drop_left]

/-- The pieces of an input are segments by longest literals.  The induction is on the length of
the input, which every piece makes shorter. -/
theorem segments_pieces {lexer : Lexer} (solid : lexer.Solid) (input : List Char) :
    lexer.Segments input (lexer.pieces input) := by
  cases input with
  | nil => exact Segments.nil
  | cons head rest =>
      cases found : lexer.longestMatch? (head :: rest) with
      | none =>
          rw [pieces_stray found]
          exact Segments.stray (no_literal_of_longestMatch? found) (segments_pieces solid rest)
      | some literal =>
          obtain ⟨type, text⟩ := literal
          have longest := longest_of_longestMatch? found
          have nonempty : text ≠ [] := solid _ longest.mem
          obtain ⟨_, _, _, ⟨later, split⟩, _⟩ := id longest
          have shorter : later.length < rest.length + 1 := by
            have total := congrArg List.length split
            rw [List.length_append, List.length_cons] at total
            have positive := List.length_pos_iff.mpr nonempty
            omega
          rw [← split] at found longest ⊢
          rw [pieces_append nonempty found]
          exact Segments.token longest (segments_pieces solid later)
termination_by input.length

/-! ### Values of which none is a prefix of another -/

/-- Whether the values tell their literals apart from the first character on. -/
def PrefixFree (lexer : Lexer) : Prop :=
  ∀ left ∈ lexer.literals, ∀ right ∈ lexer.literals, left.2 <+: right.2 → left = right

theorem longestMatch?_of_prefixFree {lexer : Lexer} (free : lexer.PrefixFree)
    {literal : TokenType × List Char} (member : literal ∈ lexer.literals) (rest : List Char) :
    lexer.longestMatch? (literal.2 ++ rest) = some literal := by
  have fits : literal.2 <+: literal.2 ++ rest := List.prefix_append literal.2 rest
  cases found : lexer.longestMatch? (literal.2 ++ rest) with
  | none => exact absurd fits (no_literal_of_longestMatch? found literal member)
  | some other =>
      have longest := longest_of_longestMatch? found
      obtain ⟨_, _, _, otherFits, bound, _⟩ := id longest
      have shorter := List.prefix_of_prefix_length_le fits otherFits (bound literal member fits)
      rw [free literal member other longest.mem shorter]

/-- A sequence of values is cut into these values. -/
theorem pieces_flatMap {lexer : Lexer} (solid : lexer.Solid) (free : lexer.PrefixFree)
    {literals : List (TokenType × List Char)} (known : ∀ literal ∈ literals,
      literal ∈ lexer.literals) :
    lexer.pieces (literals.flatMap Prod.snd) =
      literals.map (fun literal => .token literal.1 literal.2) := by
  induction literals with
  | nil => rfl
  | cons literal rest ih =>
      have member := known literal List.mem_cons_self
      rw [List.flatMap_cons, List.map_cons, pieces_append (solid literal member)
        (longestMatch?_of_prefixFree free member _),
        ih (fun other inside => known other (List.mem_cons_of_mem literal inside))]

end Lexer

end LiteralGrammar
