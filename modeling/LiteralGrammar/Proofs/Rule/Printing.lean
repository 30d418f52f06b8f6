/-
Rules can be told from their text.

Inside a literal there may be anything that the text has between its parts, even
an escaped quote, but a literal ends at the first quote that no backslash takes.
Behind it comes the mark of its repetition, and then a space in any case.  What
follows a space is a literal, a bar or the end of the rule, to go by one
character, so that the text is read in one way only.
-/

import LiteralGrammar.Proofs.Target.Containment
import LiteralGrammar.Rule.Basic

namespace LiteralGrammar

/-! ### Elements -/

/-- Whether a literal ends at its closing quote and no earlier. -/
def Literal.Closed (literal : String) : Prop :=
  ∃ glyphs, Literal.glyphs literal = .ok glyphs ∧ Glyph.plain quote ∉ glyphs

instance (literal : String) : Decidable (Literal.Closed literal) :=
  match cut : Literal.glyphs literal with
  | .ok glyphs =>
      decidable_of_iff (Glyph.plain Literal.quote ∉ glyphs) (by simp [Literal.Closed, cut])
  | .error _ => isFalse (by simp [Literal.Closed, cut])

theorem Literal.Closed.exists_body {literal : String} (closed : Closed literal) :
    ∃ body, literal.toList = quote :: body ∧
      ∀ rest, CFamily.afterLiteral? quote (body ++ rest) = some rest := by
  obtain ⟨glyphs, cut, guarded⟩ := closed
  obtain ⟨inside, delimited, scanned⟩ := Literal.glyphs_eq_ok_iff.mp cut
  refine ⟨inside ++ [quote], (Literal.interior?_eq_some_iff _ _).mp delimited, ?_⟩
  intro rest
  rw [← Glyph.flatMap_spelling_of_scan scanned, List.append_assoc, List.singleton_append,
    CFamily.afterLiteral?_glyphs (by decide) (Glyph.proper_of_scan scanned) guarded,
    CFamily.afterLiteral?_quote]

theorem Repetition.mark_append_inj {left right : Repetition} {rest other : List Char}
    (same : left.mark ++ ' ' :: rest = right.mark ++ ' ' :: other) :
    left = right ∧ rest = other := by
  cases left <;> cases right <;> simp_all [mark]

/-- An element that a space follows can be read off, and so can what comes behind it. -/
theorem Element.spelling_append_inj {left right : Element}
    (leftClosed : Literal.Closed left.literal) (rightClosed : Literal.Closed right.literal)
    {rest other : List Char}
    (same : left.spelling ++ ' ' :: rest = right.spelling ++ ' ' :: other) :
    left = right ∧ rest = other := by
  obtain ⟨leftBody, leftText, leftEnds⟩ := leftClosed.exists_body
  obtain ⟨rightBody, rightText, rightEnds⟩ := rightClosed.exists_body
  unfold spelling at same
  rw [leftText, rightText, List.append_assoc, List.append_assoc, List.cons_append,
    List.cons_append, List.cons.injEq] at same
  have behind := congrArg (CFamily.afterLiteral? Literal.quote) same.2
  rw [leftEnds, rightEnds, Option.some.injEq] at behind
  obtain ⟨sameRepetition, sameRest⟩ := Repetition.mark_append_inj behind
  have sameBody := same.2
  rw [behind, List.append_cancel_right_eq] at sameBody
  have sameLiteral : left.literal = right.literal := by
    rw [← String.toList_inj, leftText, rightText, sameBody]
  obtain ⟨literal, repetition⟩ := left
  cases sameLiteral
  cases sameRepetition
  exact ⟨rfl, sameRest⟩

theorem Element.head?_spelling {element : Element} (closed : Literal.Closed element.literal)
    (rest : List Char) : (element.spelling ++ rest).head? = some Literal.quote := by
  obtain ⟨body, text, _⟩ := closed.exists_body
  rw [spelling, text]
  rfl

namespace Rule

/-! ### The text of a rule, read from left to right -/

/-- What stands behind a space of a rule, with an alternative that has been begun and those after
it still to come. -/
def spellingFrom : Alternative → List Alternative → List Char
  | element :: rest, later => element.spelling ++ ' ' :: spellingFrom rest later
  | [], next :: later => '|' :: ' ' :: spellingFrom next later
  | [], [] => [';']
termination_by alternative later => (later, alternative)

theorem spellingFrom_cons (element : Element) (rest : Alternative) (later : List Alternative) :
    spellingFrom (element :: rest) later =
      element.spelling ++ ' ' :: spellingFrom rest later := by
  rw [spellingFrom]

theorem spaced_cons (element : Element) (rest : Alternative) :
    Alternative.spaced (element :: rest) =
      ' ' :: (element.spelling ++ Alternative.spaced rest) := by
  cases rest with
  | nil => simp [Alternative.spaced, Alternative.spelling]
  | cons next rest => simp [Alternative.spaced, Alternative.spelling]

theorem intercalate_append (separator first second : List Char) (later : List (List Char)) :
    List.intercalate separator ((first ++ second) :: later) =
      first ++ List.intercalate separator (second :: later) := by
  cases later with
  | nil => simp
  | cons next later => simp

theorem spellingFrom_eq (alternative : Alternative) (later : List Alternative) :
    List.intercalate [' ', '|'] ((alternative :: later).map Alternative.spaced) ++ [' ', ';'] =
      ' ' :: spellingFrom alternative later := by
  induction alternative, later using spellingFrom.induct with
  | case1 element rest later ih =>
      rw [spellingFrom, ← ih, List.map_cons, List.map_cons, spaced_cons, ← List.cons_append,
        intercalate_append]
      simp
  | case2 next later ih =>
      rw [spellingFrom, ← ih, List.map_cons, List.map_cons, List.intercalate_cons_cons]
      rfl
  | case3 =>
      rw [spellingFrom]
      rfl

/-- An alternative that has ended reads unlike one that goes on. -/
theorem spellingFrom_nil_ne {element : Element} (closed : Literal.Closed element.literal)
    (rest : Alternative) (later others : List Alternative) :
    spellingFrom [] later ≠ spellingFrom (element :: rest) others := by
  intro same
  have first := element.head?_spelling closed (' ' :: spellingFrom rest others)
  rw [← spellingFrom_cons, ← same] at first
  cases later <;> rw [spellingFrom, List.head?_cons] at first <;> revert first <;> decide

/-- The induction is on the alternative begun and those to come; a space has been read, and the
next character says which of the three cases it is. -/
theorem spellingFrom_inj {alternative other : Alternative} {later others : List Alternative}
    (closed : ∀ element ∈ alternative ++ later.flatten, Literal.Closed element.literal)
    (otherClosed : ∀ element ∈ other ++ others.flatten, Literal.Closed element.literal)
    (same : spellingFrom alternative later = spellingFrom other others) :
    alternative = other ∧ later = others := by
  induction alternative, later using spellingFrom.induct generalizing other others with
  | case1 element rest later ih =>
      obtain ⟨here, beyond⟩ := List.forall_mem_cons.mp closed
      cases other with
      | nil => exact absurd same.symm (spellingFrom_nil_ne here rest others later)
      | cons otherElement otherRest =>
          obtain ⟨otherHere, otherBeyond⟩ := List.forall_mem_cons.mp otherClosed
          rw [spellingFrom_cons, spellingFrom_cons] at same
          obtain ⟨sameElement, sameText⟩ := Element.spelling_append_inj here otherHere same
          obtain ⟨sameRest, sameLater⟩ := ih beyond otherBeyond sameText
          exact ⟨by rw [sameElement, sameRest], sameLater⟩
  | case2 next later ih =>
      cases other with
      | cons otherElement otherRest =>
          have otherHere := otherClosed otherElement List.mem_cons_self
          exact absurd same (spellingFrom_nil_ne otherHere otherRest _ others)
      | nil =>
          cases others with
          | nil =>
              rw [spellingFrom, spellingFrom] at same
              cases same
          | cons otherNext otherLater =>
              have otherBeyond : ∀ element ∈ otherNext ++ otherLater.flatten,
                  Literal.Closed element.literal := otherClosed
              rw [spellingFrom, spellingFrom] at same
              obtain ⟨sameNext, sameLater⟩ :=
                ih closed otherBeyond (List.cons.inj (List.cons.inj same).2).2
              exact ⟨rfl, by rw [sameNext, sameLater]⟩
  | case3 =>
      cases other with
      | cons otherElement otherRest =>
          have otherHere := otherClosed otherElement List.mem_cons_self
          exact absurd same (spellingFrom_nil_ne otherHere otherRest _ others)
      | nil =>
          cases others with
          | nil => exact ⟨rfl, rfl⟩
          | cons otherNext otherLater =>
              rw [spellingFrom, spellingFrom] at same
              cases same

/-! ### Whole rules -/

theorem spelling_eq {rule : Rule} {first : Alternative} {later : List Alternative}
    (listed : rule.alternatives = first :: later) :
    rule.spelling = rule.name.toList ++ ' ' :: ':' :: ' ' :: spellingFrom first later := by
  rw [spelling, listed, List.append_assoc, spellingFrom_eq]
  simp

/-- Printed rules are unambiguous: where names agree and literals are closed, rules that have an
alternative are printed alike exactly when all their alternatives agree. -/
theorem display_eq_iff {left right : Rule} (sameName : left.name = right.name)
    (leftSome : left.alternatives ≠ []) (rightSome : right.alternatives ≠ [])
    (leftClosed : ∀ element ∈ left.elements, Literal.Closed element.literal)
    (rightClosed : ∀ element ∈ right.elements, Literal.Closed element.literal) :
    left.display = right.display ↔ left.alternatives = right.alternatives := by
  obtain ⟨leftFirst, leftLater, leftListed⟩ := List.exists_cons_of_ne_nil leftSome
  obtain ⟨rightFirst, rightLater, rightListed⟩ := List.exists_cons_of_ne_nil rightSome
  unfold elements at leftClosed rightClosed
  rw [leftListed, List.flatten_cons] at leftClosed
  rw [rightListed, List.flatten_cons] at rightClosed
  constructor
  · intro same
    unfold display at same
    rw [String.ofList_inj, spelling_eq leftListed, spelling_eq rightListed, sameName,
      List.append_cancel_left_eq] at same
    simp only [List.cons.injEq, true_and] at same
    obtain ⟨sameFirst, sameLater⟩ := spellingFrom_inj leftClosed rightClosed same
    rw [leftListed, rightListed, sameFirst, sameLater]
  · intro same
    rw [display, display, spelling, spelling, sameName, same]

/-- A literal that reads like two alternatives but for its backslashes. -/
private def crowded : Rule :=
  { name := "run"
    alternatives := [[⟨"'a\\' | \\'b'", .oneOrMore⟩], []]
    exceptions := ExceptionSet.empty }

private def parted : Rule :=
  { name := "run"
    alternatives := [[⟨"'a'", .once⟩], [⟨"'b'", .oneOrMore⟩], []]
    exceptions := ExceptionSet.empty }

theorem display_eq_iff_crowded :
    crowded.name = parted.name ∧ crowded.alternatives ≠ [] ∧ parted.alternatives ≠ [] ∧
      (∀ element ∈ crowded.elements, Literal.Closed element.literal) ∧
      (∀ element ∈ parted.elements, Literal.Closed element.literal) ∧
      crowded.display ≠ parted.display := by
  have sameName : crowded.name = parted.name := rfl
  have crowdedSome : crowded.alternatives ≠ [] := List.cons_ne_nil _ _
  have partedSome : parted.alternatives ≠ [] := List.cons_ne_nil _ _
  have crowdedClosed : ∀ element ∈ crowded.elements, Literal.Closed element.literal := by decide
  have partedClosed : ∀ element ∈ parted.elements, Literal.Closed element.literal := by decide
  refine ⟨sameName, crowdedSome, partedSome, crowdedClosed, partedClosed, ?_⟩
  rw [ne_eq, display_eq_iff sameName crowdedSome partedSome crowdedClosed partedClosed]
  decide

end Rule

end LiteralGrammar
