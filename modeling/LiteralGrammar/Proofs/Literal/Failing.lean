/-
When a literal is malformed, told from its text.

A backslash that takes the next character ends a pair, so among the backslashes at
the end of a text the last one takes nothing exactly when their number is odd.
Nothing before them matters, and nothing that an escape means.
-/

import LiteralGrammar.Proofs.Fault
import LiteralGrammar.Literal.Basic

namespace LiteralGrammar

namespace Glyph

/-! ### Backslashes at the end -/

def escapesAtEnd (characters : List Char) : Nat :=
  (characters.reverse.takeWhile (· = '\\')).length

theorem escapesAtEnd_le (characters : List Char) :
    escapesAtEnd characters ≤ characters.length := by
  have shorter := (List.takeWhile_prefix (l := characters.reverse) (· = '\\')).length_le
  rwa [List.length_reverse] at shorter

/-- The first character counts only when there are none but backslashes behind it. -/
theorem escapesAtEnd_cons (head : Char) (tail : List Char) :
    escapesAtEnd (head :: tail) =
      if escapesAtEnd tail = tail.length then tail.length + (if head = '\\' then 1 else 0)
      else escapesAtEnd tail := by
  unfold escapesAtEnd
  rw [List.reverse_cons, List.takeWhile_append, List.length_reverse]
  split
  · rw [List.length_append, List.length_reverse]
    by_cases escape : head = '\\'
    · simp [escape]
    · simp [escape]
  · rfl

theorem escapesAtEnd_plain {head : Char} (ordinary : head ≠ '\\') (tail : List Char) :
    escapesAtEnd (head :: tail) = escapesAtEnd tail := by
  rw [escapesAtEnd_cons, if_neg ordinary]
  split
  · omega
  · rfl

/-- A backslash and what it takes count for two or not at all. -/
theorem escapesAtEnd_escaped (taken : Char) (rest : List Char) :
    escapesAtEnd ('\\' :: taken :: rest) % 2 = escapesAtEnd rest % 2 := by
  -- Only a rest of nothing but backslashes is counted on, first by `taken` and then by its escape.
  have bound := escapesAtEnd_le rest
  rw [escapesAtEnd_cons, escapesAtEnd_cons, if_pos rfl, List.length_cons]
  split
  · split
    all_goals
      split
      all_goals omega
  · split
    all_goals omega

theorem scan_eq_none_iff (characters : List Char) :
    scan characters = none ↔ escapesAtEnd characters % 2 = 1 := by
  induction characters using scan.induct with
  | case1 => decide
  | case2 => decide
  | case3 last ordinary =>
      rw [scan, if_neg ordinary, escapesAtEnd_plain ordinary]
      exact iff_of_false (Option.some_ne_none _) (by decide)
  | case4 taken rest ih => rw [scan_escaped, Option.map_eq_none_iff, ih, escapesAtEnd_escaped]
  | case5 head taken rest ordinary ih =>
      rw [scan_plain ordinary, Option.map_eq_none_iff, ih, escapesAtEnd_plain ordinary]

end Glyph

namespace Literal

/-! ### Faults of a literal -/

/-- Whether a literal lacks one of its delimiters. -/
def Undelimited (literal : String) : Prop :=
  literal.length < 2 ∨ literal.toList.head? ≠ some quote ∨ literal.toList.getLast? ≠ some quote

/-- Whether what stands between the delimiters ends in an odd number of backslashes. -/
def EndsInEscape (literal : String) : Prop :=
  Glyph.escapesAtEnd literal.toList.tail.dropLast % 2 = 1

instance (literal : String) : Decidable (Undelimited literal) :=
  inferInstanceAs (Decidable (_ ∨ _ ∨ _))

instance (literal : String) : Decidable (EndsInEscape literal) :=
  inferInstanceAs (Decidable (_ = _))

def fault? (literal : String) : Option Fault :=
  if Undelimited literal then some (.missingDelimiters literal)
  else if EndsInEscape literal then some (.danglingEscape literal)
  else none

theorem interior?_eq_none_iff (literal : String) :
    interior? literal.toList = none ↔ Undelimited literal := by
  unfold Undelimited
  rw [← String.length_toList]
  cases literal.toList with
  | nil => decide
  | cons first rest =>
      cases rest with
      | nil => simp [interior?]
      | cons second later =>
          have long : ¬(first :: second :: later).length < 2 := by
            simp only [List.length_cons]
            omega
          rw [interior?, List.getLast?_cons_cons, List.head?_cons, or_iff_right long, ne_eq,
            Option.some.injEq, ← Classical.not_and_iff_not_or_not]
          split
          · rename_i delimited
            exact iff_of_false (Option.some_ne_none _) (fun lacks => lacks delimited)
          · rename_i lacks
            exact iff_of_true rfl lacks

theorem failure?_interior (literal : String) :
    failure? (interior literal) =
      if Undelimited literal then some (.missingDelimiters literal) else none := by
  unfold interior
  cases inside : interior? literal.toList with
  | none => exact (if_pos ((interior?_eq_none_iff literal).mp inside)).symm
  | some body =>
      have delimited : ¬Undelimited literal := by
        rw [← interior?_eq_none_iff, inside]
        exact Option.some_ne_none body
      exact (if_neg delimited).symm

theorem failure?_glyphs (literal : String) : failure? (glyphs literal) = fault? literal := by
  unfold glyphs fault?
  cases inside : interior? literal.toList with
  | none => exact (if_pos ((interior?_eq_none_iff literal).mp inside)).symm
  | some body =>
      have delimited : ¬Undelimited literal := by
        rw [← interior?_eq_none_iff, inside]
        exact Option.some_ne_none body
      have between : literal.toList.tail.dropLast = body := by
        rw [(interior?_eq_some_iff _ _).mp inside, List.tail_cons, List.dropLast_concat]
      rw [if_neg delimited]
      unfold EndsInEscape
      simp only [between, ← Glyph.scan_eq_none_iff]
      cases Glyph.scan body with
      | none => rfl
      | some found => rfl

end Literal

end LiteralGrammar
