/-
A literal of grammar notation cannot end the string that it is written into.

Rewriting leaves no bare quote among the glyphs, and spells glyphs only, so a
reader that passes over whatever a backslash takes comes to the closing quote
and to no other.  This needs nothing of the quote but that it is no backslash.
-/

import LiteralGrammar.Proofs.Target.Notation
import LiteralGrammar.Target.CFamilyReader

namespace LiteralGrammar.CFamily

open Glyph

/-! ### Looking for the end of a string -/

theorem afterLiteral?_quote (quote : Char) (rest : List Char) :
    afterLiteral? quote (quote :: rest) = some rest := by
  cases rest with
  | nil => exact if_pos rfl
  | cons taken later => exact if_pos rfl

theorem afterLiteral?_plain {quote head : Char} (inside : head ≠ quote) (ordinary : head ≠ '\\')
    (rest : List Char) : afterLiteral? quote (head :: rest) = afterLiteral? quote rest := by
  cases rest with
  | nil => exact if_neg inside
  | cons taken later => rw [afterLiteral?, if_neg inside, if_neg ordinary]

theorem afterLiteral?_escaped {quote : Char} (ordinary : quote ≠ '\\') (taken : Char)
    (rest : List Char) :
    afterLiteral? quote ('\\' :: taken :: rest) = afterLiteral? quote rest := by
  rw [afterLiteral?, if_neg ordinary.symm, if_pos rfl]

/-- Glyphs among which there is no bare quote are passed over. -/
theorem afterLiteral?_glyphs {quote : Char} (ordinary : quote ≠ '\\') {glyphs : List Glyph}
    (proper : ∀ glyph ∈ glyphs, Proper glyph) (guarded : plain quote ∉ glyphs)
    (rest : List Char) :
    afterLiteral? quote (glyphs.flatMap spelling ++ rest) = afterLiteral? quote rest := by
  induction glyphs with
  | nil => rfl
  | cons glyph later ih =>
      obtain ⟨here, others⟩ := List.forall_mem_cons.mp proper
      rw [List.mem_cons, not_or] at guarded
      obtain ⟨different, unguarded⟩ := guarded
      rw [List.flatMap_cons, List.append_assoc]
      cases glyph with
      | plain character =>
          have inside : character ≠ quote := fun same => different (by rw [same])
          exact (afterLiteral?_plain inside here _).trans (ih others unguarded)
      | escaped character =>
          exact (afterLiteral?_escaped ordinary character _).trans (ih others unguarded)

/-! ### Rewritten glyphs -/

theorem kept_ne_quote (quote : Char) (glyph : Glyph) : kept quote glyph ≠ plain quote := by
  rcases kept_cases quote glyph with ⟨character, _, inside, becomes⟩ | ⟨_, becomes⟩ |
    ⟨character, _, _, becomes⟩ | ⟨character, _, ⟨inside, _⟩, becomes⟩
  · rw [becomes]
    exact fun same => inside (plain.inj same)
  · rw [becomes]
    exact fun impossible => by cases impossible
  · rw [becomes]
    exact fun impossible => by cases impossible
  · rw [becomes]
    exact fun same => inside (plain.inj same)

/-- What an escape was kept for, or given for, keeps it again. -/
theorem kept_kept (quote : Char) (glyph : Glyph) :
    kept quote (kept quote glyph) = kept quote glyph := by
  rcases kept_cases quote glyph with ⟨character, _, inside, becomes⟩ | ⟨_, becomes⟩ |
    ⟨character, _, passes, becomes⟩ | ⟨character, _, ⟨inside, _⟩, becomes⟩
  · rw [becomes, kept_plain inside]
  · rw [becomes]
    exact if_pos ((passesThrough_iff quote quote).mpr (Or.inl rfl))
  · rw [becomes]
    exact if_pos passes
  · rw [becomes, kept_plain inside]

/-! ### Rewritten literals -/

/-- Wherever a literal of grammar notation can be rewritten for a quote, the result stands between
two quotes, and no quote inside it ends the string: a backslash takes each of them, and none is
left without a character to take.  So a reader that stands behind the opening quote finds the end
at the closing one, whatever comes after it.  For the quote of grammar notation the result is a
literal of the notation, and it stays as it is when it is rewritten again. -/
theorem ofLiteral_contained {quote : Char} (ordinary : quote ≠ '\\') {literal rendered : String}
    (made : ofLiteral quote quote literal = .ok rendered) :
    (∃ body, rendered.toList = quote :: (body ++ [quote]) ∧
      (∃ glyphs, Glyph.scan body = some glyphs ∧ plain quote ∉ glyphs) ∧
      ∀ rest, afterLiteral? quote (body ++ quote :: rest) = some rest) ∧
    (quote = Literal.quote →
      (∃ glyphs, Literal.glyphs rendered = .ok glyphs) ∧
        ofLiteral quote quote rendered = .ok rendered) := by
  obtain ⟨glyphs, cut, _⟩ := map_eq_ok_iff.mp made
  have same := Except.ok.inj (made.symm.trans (ofLiteral_eq cut))
  obtain ⟨_, _, scanned⟩ := Literal.glyphs_eq_ok_iff.mp cut
  have proper : ∀ glyph ∈ glyphs.map (kept quote), Proper glyph :=
    List.forall_mem_map.mpr (fun glyph member =>
      proper_kept quote (proper_of_scan scanned glyph member))
  have guarded : plain quote ∉ glyphs.map (kept quote) := by
    intro member
    obtain ⟨glyph, _, bare⟩ := List.mem_map.mp member
    exact kept_ne_quote quote glyph bare
  constructor
  · refine ⟨(glyphs.map (kept quote)).flatMap spelling, by rw [same, String.toList_ofList],
      ⟨_, (scan_eq_some_iff _ _).mpr ⟨rfl, proper⟩, guarded⟩, ?_⟩
    intro rest
    rw [afterLiteral?_glyphs ordinary proper guarded, afterLiteral?_quote]
  · intro single
    subst single
    have again : Literal.glyphs rendered = .ok (glyphs.map (kept Literal.quote)) := by
      rw [same]
      exact Literal.glyphs_enclose_spelling proper
    refine ⟨⟨_, again⟩, ?_⟩
    rw [ofLiteral_eq again, List.map_map, same]
    simp only [Function.comp_def, kept_kept]

/-- A quote that is also the letter of an escape, next to backslashes and a broken code. -/
theorem ofLiteral_contained_letter :
    'n' ≠ '\\' ∧ ofLiteral 'n' 'n' "'n\\\\\\n\\u00\\q'" = .ok "n\\n\\\\\\n\\u00qn" ∧
      ∃ body, "n\\n\\\\\\n\\u00qn".toList = 'n' :: (body ++ ['n']) ∧
        ∀ rest, afterLiteral? 'n' (body ++ 'n' :: rest) = some rest := by
  have made : ofLiteral 'n' 'n' "'n\\\\\\n\\u00\\q'" = .ok "n\\n\\\\\\n\\u00qn" := rfl
  have ordinary : 'n' ≠ '\\' := by decide
  obtain ⟨⟨body, whole, _, ends⟩, _⟩ := ofLiteral_contained ordinary made
  exact ⟨ordinary, made, body, whole, ends⟩

end LiteralGrammar.CFamily
