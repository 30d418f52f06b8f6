/-
The passes over a literal do what cutting it into glyphs first does.

Decoding looks at four bytes where an escaped `u` looks at four glyphs.  They are
the same four where it matters: a hexadecimal digit takes one byte and is no
backslash.  So the digits that a pass leaves out hold no escape, and both passes
come to a lone backslash where the glyphs end in one.
-/

import LiteralGrammar.Proofs.Literal.Glyphs
import LiteralGrammar.Target.Passes

namespace LiteralGrammar

namespace Literal

open Glyph

/-! ### Looking ahead -/

theorem utf8Size_of_hexValue? {digit : Char} (read : (Text.hexValue? digit).isSome = true) :
    digit.utf8Size = 1 := by
  rw [Char.utf8Size_eq_one_iff]
  unfold Text.hexValue? at read
  split at read
  · rename_i decimal
    exact Nat.le_trans decimal.2 (by decide)
  · split at read
    · rename_i lowerLetter
      exact Nat.le_trans lowerLetter.2 (by decide)
    · split at read
      · rename_i upperLetter
        exact Nat.le_trans upperLetter.2 (by decide)
      · cases read

theorem leading?_append {digits : List Char} (single : ∀ digit ∈ digits, digit.utf8Size = 1)
    (rest : List Char) : leading? digits.length (digits ++ rest) = some digits := by
  induction digits with
  | nil => rw [List.length_nil, leading?]
  | cons digit later ih =>
      obtain ⟨here, behind⟩ := List.forall_mem_cons.mp single
      rw [List.length_cons, List.cons_append, leading?, here, if_pos (by omega),
        Nat.add_sub_cancel, ih behind]
      rfl

/-- Characters of one byte each are as many as the bytes. -/
theorem length_of_leading? {bytes : Nat} {text digits : List Char}
    (found : leading? bytes text = some digits)
    (single : ∀ digit ∈ digits, digit.utf8Size = 1) :
    digits.length = bytes ∧ ∃ rest, text = digits ++ rest := by
  induction bytes, text using leading?.induct generalizing digits with
  | case1 text =>
      rw [leading?] at found
      cases found
      exact ⟨rfl, text, rfl⟩
  | case2 bytes =>
      rw [leading?] at found
      cases found
  | case3 bytes character rest fits ih =>
      rw [leading?, if_pos fits] at found
      obtain ⟨later, foundLater, rfl⟩ := Option.map_eq_some_iff.mp found
      obtain ⟨here, behind⟩ := List.forall_mem_cons.mp single
      obtain ⟨count, after, same⟩ := ih foundLater behind
      rw [here] at count
      refine ⟨?_, after, by rw [same, List.cons_append]⟩
      rw [List.length_cons]
      omega
  | case4 bytes character rest tooLong =>
      rw [leading?, if_neg tooLong] at found
      cases found

theorem hexValue?_of_hexNumber? {read code : Nat} {digits : List Char}
    (found : hexNumber? read digits = some code) :
    ∀ digit ∈ digits, (Text.hexValue? digit).isSome = true := by
  induction digits generalizing read with
  | nil => exact List.forall_mem_nil _
  | cons digit rest ih =>
      rw [hexNumber?] at found
      cases value : Text.hexValue? digit with
      | none =>
          rw [value] at found
          cases found
      | some digitValue =>
          rw [value] at found
          exact List.forall_mem_cons.mpr ⟨by rw [value]; rfl, ih found⟩

theorem hexNumber?_four (first second third fourth : Char) :
    hexNumber? 0 [first, second, third, fourth] = Text.hexWord? first second third fourth := by
  unfold Text.hexWord?
  cases firstAt : Text.hexValue? first with
  | none => simp [hexNumber?, firstAt]
  | some a =>
      cases secondAt : Text.hexValue? second with
      | none => simp [hexNumber?, firstAt, secondAt]
      | some b =>
          cases thirdAt : Text.hexValue? third with
          | none => simp [hexNumber?, firstAt, secondAt, thirdAt]
          | some c =>
              cases fourthAt : Text.hexValue? fourth with
              | none => simp [hexNumber?, firstAt, secondAt, thirdAt, fourthAt]
              | some d => simp [hexNumber?, firstAt, secondAt, thirdAt, fourthAt]

/-- Four bytes that name a character are four digits. -/
theorem codeAhead?_eq_some_iff {text : List Char} {character : Char} :
    codeAhead? text = some character ↔ ∃ first second third fourth rest,
      text = first :: second :: third :: fourth :: rest ∧
        coded? first second third fourth = some character := by
  constructor
  · intro found
    unfold codeAhead? at found
    split at found
    · rename_i code ahead
      obtain ⟨digits, started, number⟩ := Option.bind_eq_some_iff.mp ahead
      obtain ⟨count, rest, same⟩ := length_of_leading? started (fun digit member =>
        utf8Size_of_hexValue? (hexValue?_of_hexNumber? number digit member))
      match digits, count with
      | [first, second, third, fourth], _ =>
          rw [hexNumber?_four] at number
          refine ⟨first, second, third, fourth, rest, same, ?_⟩
          unfold coded?
          rw [number]
          exact found
    · cases found
  · rintro ⟨first, second, third, fourth, rest, rfl, coded⟩
    obtain ⟨code, read, valid, named⟩ := coded?_eq_some_iff.mp coded
    have single : ∀ digit ∈ [first, second, third, fourth], digit.utf8Size = 1 :=
      fun digit member => utf8Size_of_hexValue? (Text.hexValue?_of_hexWord? read digit member)
    have ahead : (leading? 4 (first :: second :: third :: fourth :: rest)).bind (hexNumber? 0) =
        some code := by
      refine (congrArg (Option.bind · (hexNumber? 0)) (leading?_append single rest)).trans ?_
      exact (hexNumber?_four first second third fourth).trans read
    unfold codeAhead?
    rw [ahead]
    exact (if_pos valid).trans (congrArg some named)

/-- The bytes behind an escaped `u` name what the glyphs behind it name. -/
theorem codeAhead?_eq_named? {text : List Char} {glyphs : List Glyph}
    (scanned : scan text = some glyphs) : codeAhead? text = named? glyphs := by
  apply Option.ext
  intro character
  rw [codeAhead?_eq_some_iff, named?_eq_some_iff]
  constructor
  · rintro ⟨first, second, third, fourth, rest, same, coded⟩
    obtain ⟨code, read, _⟩ := coded?_eq_some_iff.mp coded
    obtain ⟨later, plain⟩ := plain_digits_of_spelling
      ((flatMap_spelling_of_scan scanned).trans same) (Text.hexValue?_of_hexWord? read)
    exact ⟨first, second, third, fourth, later, plain, coded⟩
  · rintro ⟨first, second, third, fourth, later, plain, coded⟩
    refine ⟨first, second, third, fourth, later.flatMap spelling, ?_, coded⟩
    rw [← flatMap_spelling_of_scan scanned, plain]
    rfl

/-! ### Passes -/

/-- What a text comes to when it is cut into glyphs first. -/
def ofScan (literal : String) (denote : List Glyph → List Char) :
    Option (List Glyph) → Except Fault (List Char)
  | none => .error (.danglingEscape literal)
  | some glyphs => .ok (denote glyphs)

theorem ofScan_map (literal : String) {denote : List Glyph → List Char}
    {put : List Glyph → List Glyph} {write : List Char → List Char} {cut : Option (List Glyph)}
    (step : ∀ glyphs, cut = some glyphs → denote (put glyphs) = write (denote glyphs)) :
    ofScan literal denote (cut.map put) = (ofScan literal denote cut).map write := by
  cases cut with
  | none => rfl
  | some glyphs => exact congrArg Except.ok (step glyphs rfl)

theorem decodeFrom_eq (literal : String) (characters : List Char) :
    decodeFrom literal characters = ofScan literal Glyph.decode (scan characters) := by
  induction characters using decodeFrom.induct with
  | case1 => exact decodeFrom_nil literal
  | case2 => exact decodeFrom_lone_escape literal
  | case3 taken later named ahead ih =>
      split at ahead
      · rename_i unit
        subst unit
        obtain ⟨first, second, third, fourth, rest, rfl, coded⟩ :=
          codeAhead?_eq_some_iff.mp ahead
        obtain ⟨code, read, _⟩ := coded?_eq_some_iff.mp coded
        have cut : scan ('\\' :: 'u' :: first :: second :: third :: fourth :: rest) =
            (scan rest).map (codeGlyphs first second third fourth ++ ·) :=
          scan_append (scan_codeGlyphs read) rest
        -- The pass goes on behind the digits, where the glyphs of the code end too.
        have behind : decodeFrom literal rest = ofScan literal Glyph.decode (scan rest) := ih
        rw [decodeFrom_escaped, if_pos rfl, ahead, cut]
        change (decodeFrom literal rest).map (named :: ·) = _
        rw [behind, ofScan_map literal fun glyphs _ => decode_codeGlyphs glyphs coded]
      · cases ahead
  | case4 taken later ahead ih =>
      simp only [dite_eq_ite] at ahead
      rw [decodeFrom_escaped, ahead, scan_escaped]
      change (decodeFrom literal later).map (meaning taken :: ·) = _
      rw [ih, ofScan_map literal]
      intro glyphs scanned
      by_cases unit : taken = 'u'
      · subst unit
        rw [if_pos rfl, codeAhead?_eq_named? scanned] at ahead
        exact decode_unnamed ahead
      · exact decode_escaped unit glyphs
  | case5 head rest ordinary ih =>
      rw [decodeFrom_plain literal ordinary, ih, scan_plain ordinary,
        ofScan_map literal fun glyphs _ => decode_plain head glyphs]

/-- Running over the inside of a literal is running over its glyphs. -/
theorem interior_bind_ofScan (literal : String) (denote : List Glyph → List Char)
    (enclosed : List Char → String) :
    (interior literal >>= fun body =>
        ofScan literal denote (scan body.toList) >>= fun text => .ok (enclosed text)) =
      (glyphs literal).map (fun found => enclosed (denote found)) := by
  unfold interior glyphs
  cases interior? literal.toList with
  | none => rfl
  | some body =>
      dsimp only
      change (ofScan literal denote (scan (String.ofList body).toList) >>= _) = _
      rw [String.toList_ofList]
      cases scan body with
      | none => rfl
      | some found => rfl

/-- Decoding in one pass is decoding. -/
theorem decodePass_eq (literal : String) : decodePass literal = decode literal := by
  unfold decodePass
  simp only [decodeFrom_eq]
  exact interior_bind_ofScan literal Glyph.decode String.ofList

end Literal

namespace CFamily

open Glyph

theorem renderGlyphs_cons (quote passQuote : Char) (glyph : Glyph) (rest : List Glyph) :
    renderGlyphs quote passQuote (glyph :: rest) =
      renderGlyph quote passQuote glyph ++ renderGlyphs quote passQuote rest :=
  List.flatMap_cons

theorem rewriteFrom_eq (quote passQuote : Char) (literal : String) (characters : List Char) :
    rewriteFrom quote passQuote literal characters =
      Literal.ofScan literal (renderGlyphs quote passQuote) (scan characters) := by
  induction characters using rewriteFrom.induct with
  | case1 => exact rewriteFrom_nil quote passQuote literal
  | case2 => exact rewriteFrom_lone_escape quote passQuote literal
  | case3 taken later ih =>
      rw [rewriteFrom_escaped, ih, scan_escaped,
        Literal.ofScan_map literal fun _ _ => renderGlyphs_cons quote passQuote _ _]
  | case4 head rest ordinary ih =>
      rw [rewriteFrom_plain _ _ _ ordinary, ih, scan_plain ordinary,
        Literal.ofScan_map literal fun _ _ => renderGlyphs_cons quote passQuote _ _]

/-- Rewriting in one pass is rewriting. -/
theorem rewritePass_eq (quote passQuote : Char) (literal : String) :
    rewritePass quote passQuote literal = ofLiteral quote passQuote literal := by
  unfold rewritePass
  simp only [rewriteFrom_eq]
  exact Literal.interior_bind_ofScan literal (renderGlyphs quote passQuote) _

end CFamily

end LiteralGrammar
