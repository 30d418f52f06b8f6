/-
Rewriting a literal of grammar notation for the C family, glyph by glyph.

Each glyph becomes one glyph: a bare quote gains a backslash, and an escape that
the target does not know loses it.  Neither changes what a glyph denotes by
itself, and the digits after an escaped `u` stay as they are; but an escape may
lose its backslash where such digits are expected.
-/

import LiteralGrammar.Proofs.Literal.Glyphs
import LiteralGrammar.Target.Rendering

namespace LiteralGrammar

namespace CFamily

open Glyph

/-- The marks at which strings of the family end. -/
def IsMark (quote : Char) : Prop :=
  quote = '\'' ∨ quote = '"'

/-- What a glyph becomes in a literal that ends at `quote`. -/
def kept (quote : Char) : Glyph → Glyph
  | plain character => if character = quote then escaped character else plain character
  | escaped character =>
      if passesThrough quote character then escaped character else plain character

theorem kept_plain {quote character : Char} (different : character ≠ quote) :
    kept quote (plain character) = plain character :=
  if_neg different

theorem spelling_kept (quote : Char) (glyph : Glyph) :
    (kept quote glyph).spelling = renderGlyph quote quote glyph := by
  cases glyph with
  | plain character => exact apply_ite spelling _ _ _
  | escaped character => exact apply_ite spelling _ _ _

theorem renderGlyphs_eq (quote : Char) (glyphs : List Glyph) :
    renderGlyphs quote quote glyphs = (glyphs.map (kept quote)).flatMap spelling := by
  unfold renderGlyphs
  rw [List.flatMap_map, funext (spelling_kept quote)]

theorem ofLiteral_eq {quote : Char} {literal : String} {glyphs : List Glyph}
    (cut : Literal.glyphs literal = .ok glyphs) :
    ofLiteral quote quote literal =
      .ok (String.ofList (quote :: ((glyphs.map (kept quote)).flatMap spelling ++ [quote]))) := by
  unfold ofLiteral
  rw [cut, ← renderGlyphs_eq]
  rfl

/-! ### One glyph -/

theorem passesThrough_iff (quote character : Char) :
    passesThrough quote character = true ↔
      character = quote ∨ character ∈ ['n', 'r', 't', 'b', 'f', '\\', 'u'] := by
  simp [passesThrough]

theorem kept_unit (quote : Char) : kept quote (escaped 'u') = escaped 'u' :=
  if_pos ((passesThrough_iff quote 'u').mpr (Or.inr (by decide)))

/-- What can happen to a glyph.  An escape that loses its backslash stands for its character,
which is neither the quote nor a backslash. -/
theorem kept_cases (quote : Char) (glyph : Glyph) :
    (∃ character, glyph = plain character ∧ character ≠ quote ∧
        kept quote glyph = plain character) ∨
      (glyph = plain quote ∧ kept quote glyph = escaped quote) ∨
      (∃ character, glyph = escaped character ∧ passesThrough quote character = true ∧
        kept quote glyph = escaped character) ∨
      ∃ character, glyph = escaped character ∧
        (character ≠ quote ∧ character ≠ '\\' ∧ meaning character = character) ∧
        kept quote glyph = plain character := by
  cases glyph with
  | plain character =>
      by_cases same : character = quote
      · exact Or.inr (Or.inl ⟨congrArg plain same, by rw [same]; exact if_pos rfl⟩)
      · exact Or.inl ⟨character, rfl, same, kept_plain same⟩
  | escaped character =>
      by_cases passes : passesThrough quote character = true
      · exact Or.inr (Or.inr (Or.inl ⟨character, rfl, passes, if_pos passes⟩))
      · refine Or.inr (Or.inr (Or.inr ⟨character, rfl, ?_, if_neg passes⟩))
        rw [passesThrough_iff] at passes
        simp only [List.mem_cons, not_or] at passes
        refine ⟨passes.1, passes.2.2.2.2.2.2.1, ?_⟩
        unfold meaning
        simp only [passes, if_false]

theorem proper_kept (quote : Char) {glyph : Glyph} (proper : Proper glyph) :
    Proper (kept quote glyph) := by
  rcases kept_cases quote glyph with ⟨character, same, _, becomes⟩ | ⟨_, becomes⟩ |
    ⟨character, _, _, becomes⟩ | ⟨character, _, ⟨_, ordinary, _⟩, becomes⟩
  · rw [becomes, ← same]
    exact proper
  · rw [becomes]
    trivial
  · rw [becomes]
    trivial
  · rw [becomes]
    exact ordinary

/-! ### Marks of the family -/

namespace IsMark

variable {quote : Char} (mark : IsMark quote)

include mark

theorem meaning_eq : meaning quote = quote := by
  rcases mark with same | same <;> rw [same] <;> decide

theorem ne_unit : quote ≠ 'u' := by
  rcases mark with same | same <;> rw [same] <;> decide

theorem hexValue?_eq_none : Text.hexValue? quote = none := by
  rcases mark with same | same <;> rw [same] <;> decide

theorem value_kept (glyph : Glyph) : (kept quote glyph).value = glyph.value := by
  rcases kept_cases quote glyph with ⟨character, same, _, becomes⟩ | ⟨same, becomes⟩ |
    ⟨character, same, _, becomes⟩ | ⟨character, same, ⟨_, _, itself⟩, becomes⟩
  · rw [becomes, same]
  · rw [becomes, same]
    exact mark.meaning_eq
  · rw [becomes, same]
  · rw [becomes, same]
    exact itself.symm

theorem kept_ne_unit {glyph : Glyph} (other : glyph ≠ escaped 'u') :
    kept quote glyph ≠ escaped 'u' := by
  rcases kept_cases quote glyph with ⟨character, _, _, becomes⟩ | ⟨_, becomes⟩ |
    ⟨character, same, _, becomes⟩ | ⟨character, _, _, becomes⟩
  · rw [becomes]
    exact fun impossible => by cases impossible
  · rw [becomes]
    exact fun unit => mark.ne_unit (escaped.inj unit)
  · rw [becomes, ← same]
    exact other
  · rw [becomes]
    exact fun impossible => by cases impossible

theorem kept_digit {digit : Char} (read : (Text.hexValue? digit).isSome = true) :
    kept quote (plain digit) = plain digit := by
  apply kept_plain
  intro same
  rw [same, mark.hexValue?_eq_none] at read
  cases read

/-- The digits that name a character stay as they are. -/
theorem map_kept_codeGlyphs {first second third fourth character : Char} (rest : List Glyph)
    (coded : coded? first second third fourth = some character) :
    (codeGlyphs first second third fourth ++ rest).map (kept quote) =
      codeGlyphs first second third fourth ++ rest.map (kept quote) := by
  obtain ⟨code, read, _⟩ := coded?_eq_some_iff.mp coded
  have digits := Text.hexValue?_of_hexWord? read
  simp only [List.forall_mem_cons] at digits
  obtain ⟨firstDigit, secondDigit, thirdDigit, fourthDigit, _⟩ := digits
  rw [List.map_append]
  congr
  unfold codeGlyphs
  rw [List.map_cons, List.map_cons, List.map_cons, List.map_cons, List.map_cons, kept_unit,
    mark.kept_digit firstDigit, mark.kept_digit secondDigit, mark.kept_digit thirdDigit,
    mark.kept_digit fourthDigit, List.map_nil]

end IsMark

end CFamily

namespace Target

theorem isMark_quote (target : Target) : CFamily.IsMark target.quote := by
  cases target with
  | java => exact Or.inr rfl
  | apex => exact Or.inl rfl
  | delphi => exact Or.inl rfl

end Target

end LiteralGrammar
