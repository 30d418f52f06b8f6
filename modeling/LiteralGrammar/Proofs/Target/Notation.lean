/-
Rewritten literals as literals of grammar notation.

Strings of one language of the family end where literals of grammar notation
end, so its literals can be decoded like those of a grammar.  They denote what
they were written for, unless an escaped `u` that names nothing is followed by
escapes that lose their backslash and leave digits behind that name a character.
-/

import LiteralGrammar.Proofs.Target.Rewriting

namespace LiteralGrammar

namespace CFamily

open Glyph

/-- Whether some escaped `u` names nothing, but would if the escapes after it were dropped. -/
def Fuses (quote : Char) : List Glyph → Prop
  | [] => False
  | glyph :: rest =>
      (glyph = escaped 'u' ∧ named? rest = none ∧
        (named? (rest.map (kept quote))).isSome = true) ∨ Fuses quote rest

variable {quote : Char}

theorem fuses_single {glyph : Glyph} (other : glyph ≠ escaped 'u') (rest : List Glyph) :
    Fuses quote (glyph :: rest) ↔ Fuses quote rest :=
  or_iff_right (fun here => other here.1)

theorem fuses_codeGlyphs {first second third fourth character : Char} (rest : List Glyph)
    (coded : coded? first second third fourth = some character) :
    Fuses quote (codeGlyphs first second third fourth ++ rest) ↔ Fuses quote rest := by
  simp [codeGlyphs, Fuses, named?, coded]

theorem decode_map_kept (mark : IsMark quote) {glyphs : List Glyph}
    (apart : ¬Fuses quote glyphs) : decode (glyphs.map (kept quote)) = decode glyphs := by
  induction glyphs using decode_induction with
  | nil => rfl
  | single glyph rest other ih =>
      rw [fuses_single other] at apart
      rw [List.map_cons, decode_single (mark.kept_ne_unit other), mark.value_kept, ih apart,
        decode_single other]
  | named first second third fourth rest character coded ih =>
      rw [fuses_codeGlyphs rest coded] at apart
      rw [mark.map_kept_codeGlyphs rest coded, decode_codeGlyphs _ coded, ih apart,
        decode_codeGlyphs _ coded]
  | unnamed rest missing ih =>
      have here : named? (rest.map (kept quote)) = none := by
        apply Option.not_isSome_iff_eq_none.mp
        exact fun found => apart (Or.inl ⟨rfl, missing, found⟩)
      rw [List.map_cons, kept_unit, decode_unnamed here,
        ih (fun later => apart (Or.inr later)), decode_unnamed missing]

/-- An escaped `u` with its digits denotes three characters less than the digits alone. -/
theorem length_decode_of_named {rest : List Glyph} {character : Char}
    (found : named? rest = some character) :
    (decode (escaped 'u' :: rest)).length + 3 = (decode rest).length := by
  obtain ⟨first, second, third, fourth, later, same, coded⟩ := named?_eq_some_iff.mp found
  rw [same]
  change (decode (codeGlyphs first second third fourth ++ later)).length + 3 = _
  rw [decode_codeGlyphs later coded]
  rfl

theorem length_decode_map_kept (mark : IsMark quote) (glyphs : List Glyph) :
    (decode (glyphs.map (kept quote))).length ≤ (decode glyphs).length ∧
      (Fuses quote glyphs →
        (decode (glyphs.map (kept quote))).length < (decode glyphs).length) := by
  induction glyphs using decode_induction with
  | nil => exact ⟨Nat.le_refl _, False.elim⟩
  | single glyph rest other ih =>
      rw [fuses_single other, List.map_cons, decode_single (mark.kept_ne_unit other),
        decode_single other, List.length_cons, List.length_cons]
      exact ⟨Nat.succ_le_succ ih.1, fun fused => Nat.succ_lt_succ (ih.2 fused)⟩
  | named first second third fourth rest character coded ih =>
      rw [fuses_codeGlyphs rest coded, mark.map_kept_codeGlyphs rest coded,
        decode_codeGlyphs _ coded, decode_codeGlyphs _ coded, List.length_cons, List.length_cons]
      exact ⟨Nat.succ_le_succ ih.1, fun fused => Nat.succ_lt_succ (ih.2 fused)⟩
  | unnamed rest missing ih =>
      rw [List.map_cons, kept_unit, decode_unnamed missing, List.length_cons]
      cases found : named? (rest.map (kept quote)) with
      | none =>
          rw [decode_unnamed found, List.length_cons]
          refine ⟨Nat.succ_le_succ ih.1, ?_⟩
          intro fused
          rcases fused with here | later
          · rw [found] at here
            cases here.2.2
          · exact Nat.succ_lt_succ (ih.2 later)
      | some character =>
          -- `ih` counts the digits that the name has swallowed as characters of their own.
          have shorter := length_decode_of_named found
          have bound := ih.1
          exact ⟨by omega, fun _ => by omega⟩

theorem decode_map_kept_iff (mark : IsMark quote) (glyphs : List Glyph) :
    decode (glyphs.map (kept quote)) = decode glyphs ↔ ¬Fuses quote glyphs := by
  constructor
  · intro same fused
    have less := (length_decode_map_kept mark glyphs).2 fused
    rw [same] at less
    exact Nat.lt_irrefl _ less
  · exact decode_map_kept mark

end CFamily

namespace Literal

theorem glyphs_enclose_spelling {glyphs : List Glyph}
    (proper : ∀ glyph ∈ glyphs, Glyph.Proper glyph) :
    Literal.glyphs (enclose (glyphs.flatMap Glyph.spelling)) = .ok glyphs := by
  rw [glyphs_enclose, (Glyph.scan_eq_some_iff _ glyphs).mpr ⟨rfl, proper⟩]

end Literal

namespace Target

/-- A literal for Apex is again a literal of grammar notation.  It denotes the same text exactly
when no escaped `u` of the literal gets a name from escapes that are dropped after it. -/
theorem decode_grammarLiteral_apex_iff {literal text : String}
    (decodes : Literal.decode literal = .ok text) :
    ∃ glyphs rendered other, Literal.glyphs literal = .ok glyphs ∧
      Target.apex.grammarLiteral literal = .ok rendered ∧
      Literal.decode rendered = .ok other ∧
      (other = text ↔ ¬CFamily.Fuses Target.apex.quote glyphs) := by
  obtain ⟨glyphs, cut, denoted⟩ := Literal.decode_eq_ok_iff.mp decodes
  obtain ⟨body, _, scanned⟩ := Literal.glyphs_eq_ok_iff.mp cut
  have proper : ∀ glyph ∈ glyphs.map (CFamily.kept Target.apex.quote), Glyph.Proper glyph := by
    intro glyph member
    obtain ⟨original, inside, becomes⟩ := List.mem_map.mp member
    rw [← becomes]
    exact CFamily.proper_kept _ (Glyph.proper_of_scan scanned original inside)
  refine ⟨glyphs, _, _, cut, CFamily.ofLiteral_eq cut,
    Literal.decode_eq_ok_iff.mpr ⟨_, Literal.glyphs_enclose_spelling proper, rfl⟩, ?_⟩
  rw [← denoted, String.ofList_inj]
  exact CFamily.decode_map_kept_iff (isMark_quote .apex) glyphs

/-- Digits behind dropped backslashes, but one too few for a code. -/
theorem decode_grammarLiteral_apex_iff_apart :
    ∃ glyphs, Literal.glyphs "'\\u\\004\\q'" = .ok glyphs ∧
      Literal.decode "'\\u\\004\\q'" = .ok "u004q" ∧
      Literal.decode "'\\u004q'" = .ok "u004q" ∧ ¬CFamily.Fuses '\'' glyphs := by
  have decodes : Literal.decode "'\\u\\004\\q'" = .ok "u004q" := rfl
  have decodesToo : Literal.decode "'\\u004q'" = .ok "u004q" := rfl
  obtain ⟨glyphs, rendered, other, cut, made, read, exact⟩ :=
    decode_grammarLiteral_apex_iff decodes
  have renders : Target.apex.grammarLiteral "'\\u\\004\\q'" = .ok "'\\u004q'" := rfl
  rw [renders] at made
  cases made
  rw [decodesToo] at read
  exact ⟨glyphs, cut, decodes, decodesToo, exact.mp (Except.ok.inj read).symm⟩

/-- Not every literal keeps its text: a dropped backslash can complete the code of a character. -/
theorem decode_grammarLiteral_apex_fused :
    ¬∀ literal text, Literal.decode literal = .ok text →
      ∃ rendered, Target.apex.grammarLiteral literal = .ok rendered ∧
        Literal.decode rendered = .ok text := by
  intro always
  obtain ⟨rendered, made, read⟩ := always "'\\u\\0041'" "u0041" rfl
  have renders : Target.apex.grammarLiteral "'\\u\\0041'" = .ok "'\\u0041'" := rfl
  have decodes : Literal.decode "'\\u0041'" = .ok "A" := rfl
  rw [renders] at made
  cases made
  rw [decodes] at read
  exact absurd (Except.ok.inj read) (by decide)

end Target

end LiteralGrammar
