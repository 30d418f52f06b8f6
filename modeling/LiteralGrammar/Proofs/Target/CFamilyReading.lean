/-
What a compiler of the C family makes of a rewritten literal.

Glyphs that are rewritten by themselves are read as what they denote.  An
escaped `u` that names a character is read as this character.  One that names
none makes the reader fail or take at least four characters for a single code
unit, so what is read comes out shorter than what is denoted.
-/

import LiteralGrammar.Proofs.Target.Rewriting
import LiteralGrammar.Target.CFamilyReader

namespace LiteralGrammar

namespace CFamily

open Glyph Text

variable {quote : Char}

/-! ### Steps of the reader -/

theorem readBody_plain {character : Char} (ordinary : character ≠ '\\')
    (different : character ≠ quote) (rest : List Char) :
    readBody quote .between (character :: rest) =
      (readBody quote .between rest).map (codeUnits character ++ ·) := by
  rw [readBody, if_neg ordinary, if_neg different]

theorem readBody_escape {character value : Char} (known : escapeValue? character = some value)
    (rest : List Char) :
    readBody quote .between ('\\' :: character :: rest) =
      (readBody quote .between rest).map (codeUnits value ++ ·) := by
  have other : character ≠ 'u' := by
    intro same
    rw [same] at known
    cases known
  rw [readBody, if_pos rfl, readBody, if_neg other, known]

theorem readBody_unit (rest : List Char) :
    readBody quote .between ('\\' :: 'u' :: rest) = readBody quote (.unit 3 0) rest := by
  rw [readBody, if_pos rfl, readBody, if_pos rfl]

theorem readBody_digit_eq_some_iff {missing value : Nat} {text : List Char}
    {units : List CodeUnit} :
    readBody quote (.unit (missing + 1) value) text = some units ↔
      ∃ digit rest digitValue, text = digit :: rest ∧ hexValue? digit = some digitValue ∧
        readBody quote (.unit missing (value * 16 + digitValue)) rest = some units := by
  cases text with
  | nil => simp [readBody]
  | cons digit rest =>
      have step : readBody quote (.unit (missing + 1) value) (digit :: rest) =
          (hexValue? digit).bind (fun digitValue =>
            readBody quote (.unit missing (value * 16 + digitValue)) rest) := by
        rw [readBody]
        cases hexValue? digit <;> rfl
      rw [step, Option.bind_eq_some_iff]
      constructor
      · rintro ⟨digitValue, found, read⟩
        exact ⟨digit, rest, digitValue, rfl, found, read⟩
      · rintro ⟨_, _, digitValue, same, found, read⟩
        cases same
        exact ⟨digitValue, found, read⟩

theorem readBody_last_digit_eq_some_iff {value : Nat} {text : List Char}
    {units : List CodeUnit} :
    readBody quote (.unit 0 value) text = some units ↔
      ∃ digit rest digitValue later, text = digit :: rest ∧ hexValue? digit = some digitValue ∧
        readBody quote .between rest = some later ∧
        UInt16.ofNat (value * 16 + digitValue) :: later = units := by
  cases text with
  | nil => simp [readBody]
  | cons digit rest =>
      have step : readBody quote (.unit 0 value) (digit :: rest) =
          (hexValue? digit).bind (fun digitValue =>
            (readBody quote .between rest).map
              (UInt16.ofNat (value * 16 + digitValue) :: ·)) := by
        rw [readBody]
        cases hexValue? digit <;> rfl
      rw [step, Option.bind_eq_some_iff]
      constructor
      · rintro ⟨digitValue, found, read⟩
        obtain ⟨later, readLater, same⟩ := Option.map_eq_some_iff.mp read
        exact ⟨digit, rest, digitValue, later, rfl, found, readLater, same⟩
      · rintro ⟨_, _, digitValue, later, same, found, readLater, whole⟩
        cases same
        exact ⟨digitValue, found, Option.map_eq_some_iff.mpr ⟨later, readLater, whole⟩⟩

/-- After an escaped `u` the reader takes exactly four digits, and they are one code unit. -/
theorem readBody_code_eq_some_iff {text : List Char} {units : List CodeUnit} :
    readBody quote (.unit 3 0) text = some units ↔
      ∃ first second third fourth rest code later,
        text = first :: second :: third :: fourth :: rest ∧
        hexWord? first second third fourth = some code ∧
        readBody quote .between rest = some later ∧ UInt16.ofNat code :: later = units := by
  simp only [readBody_digit_eq_some_iff, readBody_last_digit_eq_some_iff, hexWord?_eq_some_iff]
  constructor
  · rintro ⟨first, _, a, rfl, firstAt, second, _, b, rfl, secondAt, third, _, c, rfl, thirdAt,
      fourth, rest, d, later, rfl, fourthAt, read, same⟩
    rw [Nat.zero_mul, Nat.zero_add] at same
    exact ⟨first, second, third, fourth, rest, _, later, rfl,
      ⟨a, b, c, d, firstAt, secondAt, thirdAt, fourthAt, rfl⟩, read, same⟩
  · rintro ⟨first, second, third, fourth, rest, _, later, rfl,
      ⟨a, b, c, d, firstAt, secondAt, thirdAt, fourthAt, rfl⟩, read, same⟩
    refine ⟨first, _, a, rfl, firstAt, second, _, b, rfl, secondAt, third, _, c, rfl, thirdAt,
      fourth, rest, d, later, rfl, fourthAt, read, ?_⟩
    rw [Nat.zero_mul, Nat.zero_add]
    exact same

/-! ### Glyphs that can be read -/

/-- A glyph that stands for its character where strings end at `quote`. -/
def Readable (quote : Char) : Glyph → Prop
  | plain character => character ≠ '\\' ∧ character ≠ quote
  | escaped character => character ≠ 'u' → escapeValue? character = some (meaning character)

theorem escapeValue?_of_passesThrough (mark : IsMark quote) {character : Char}
    (passes : passesThrough quote character = true) (other : character ≠ 'u') :
    escapeValue? character = some (meaning character) := by
  rcases (passesThrough_iff quote character).mp passes with same | listed
  · rw [same]
    rcases mark with same | same <;> rw [same] <;> decide
  · simp only [List.mem_cons, List.not_mem_nil, or_false] at listed
    rcases listed with rfl | rfl | rfl | rfl | rfl | rfl | unit
    · rfl
    · rfl
    · rfl
    · rfl
    · rfl
    · rfl
    · exact absurd unit other

theorem readable_kept (mark : IsMark quote) {glyph : Glyph} (proper : Proper glyph) :
    Readable quote (kept quote glyph) := by
  rcases kept_cases quote glyph with ⟨character, same, different, becomes⟩ | ⟨same, becomes⟩ |
    ⟨character, same, passes, becomes⟩ | ⟨character, same, ⟨different, ordinary, _⟩, becomes⟩
  · rw [same] at proper
    rw [becomes]
    exact ⟨proper, different⟩
  · rw [becomes]
    intro other
    exact escapeValue?_of_passesThrough mark
      ((passesThrough_iff quote quote).mpr (Or.inl rfl)) other
  · rw [becomes]
    exact escapeValue?_of_passesThrough mark passes
  · rw [becomes]
    exact ⟨ordinary, different⟩

theorem readBody_single {glyph : Glyph} (readable : Readable quote glyph)
    (other : glyph ≠ escaped 'u') (rest : List Char) :
    readBody quote .between (glyph.spelling ++ rest) =
      (readBody quote .between rest).map (codeUnits glyph.value ++ ·) := by
  cases glyph with
  | plain character => exact readBody_plain readable.1 readable.2 rest
  | escaped character =>
      exact readBody_escape (readable (fun same => other (congrArg escaped same))) rest

/-! ### Rewritten literals -/

/-- A code that names a character is the code unit of this character. -/
theorem codeUnits_of_coded {first second third fourth character : Char} {code : Nat}
    (read : hexWord? first second third fourth = some code)
    (coded : coded? first second third fourth = some character) :
    codeUnits character = [UInt16.ofNat code] := by
  obtain ⟨other, readToo, valid, same⟩ := coded?_eq_some_iff.mp coded
  rw [read] at readToo
  cases readToo
  have number : character.toNat = code := by
    rw [← same]
    unfold Char.ofNat
    rw [dif_pos valid]
    rfl
  rw [codeUnits_of_lt (number ▸ hexWord?_lt read), number]

theorem readBody_numeral {first second third fourth : Char} {code : Nat}
    (read : hexWord? first second third fourth = some code) (rest : List Char) :
    readBody quote .between ('\\' :: 'u' :: first :: second :: third :: fourth :: rest) =
      (readBody quote .between rest).map (UInt16.ofNat code :: ·) := by
  rw [readBody_unit]
  apply Option.ext
  intro units
  rw [readBody_code_eq_some_iff, Option.map_eq_some_iff]
  constructor
  · rintro ⟨_, _, _, _, _, other, later, same, readToo, readLater, whole⟩
    cases same
    rw [read] at readToo
    cases readToo
    exact ⟨later, readLater, whole⟩
  · rintro ⟨later, readLater, whole⟩
    exact ⟨_, _, _, _, rest, code, later, rfl, read, readLater, whole⟩

theorem readBody_coded {first second third fourth character : Char}
    (coded : coded? first second third fourth = some character) (rest : List Char) :
    readBody quote .between ('\\' :: 'u' :: first :: second :: third :: fourth :: rest) =
      (readBody quote .between rest).map (codeUnits character ++ ·) := by
  obtain ⟨code, read, _⟩ := coded?_eq_some_iff.mp coded
  rw [readBody_numeral read, codeUnits_of_coded read coded]
  rfl

theorem readBody_of_namesAll (mark : IsMark quote) {glyphs : List Glyph}
    (proper : ∀ glyph ∈ glyphs, Proper glyph) (named : NamesAll glyphs) :
    readBody quote .between ((glyphs.map (kept quote)).flatMap spelling) =
      some (utf16 (decode glyphs)) := by
  induction glyphs using decode_induction with
  | nil => rfl
  | single glyph rest other ih =>
      obtain ⟨here, later⟩ := List.forall_mem_cons.mp proper
      rw [List.map_cons, List.flatMap_cons,
        readBody_single (readable_kept mark here) (mark.kept_ne_unit other), mark.value_kept,
        ih later ((namesAll_single other rest).mp named), decode_single other, utf16_cons]
      rfl
  | named first second third fourth rest character coded ih =>
      have later := (List.forall_mem_append.mp proper).2
      rw [mark.map_kept_codeGlyphs rest coded, spelling_codeGlyphs, readBody_coded coded,
        ih later ((namesAll_codeGlyphs rest coded).mp named), decode_codeGlyphs rest coded,
        utf16_cons]
      rfl
  | unnamed rest missing _ =>
      have found := named.1 rfl
      rw [missing] at found
      cases found

/-- What follows an escaped `u` that was read as a code unit can be read by itself, and is
longer then by its four digits. -/
theorem readBody_of_code (mark : IsMark quote) {text : List Char} {units : List CodeUnit}
    (read : readBody quote (.unit 3 0) text = some units) :
    ∃ alone, readBody quote .between text = some alone ∧ units.length + 3 ≤ alone.length := by
  obtain ⟨first, second, third, fourth, rest, code, later, same, digits, readLater, whole⟩ :=
    readBody_code_eq_some_iff.mp read
  have values := hexValue?_of_hexWord? digits
  have digit {character : Char} (value : (hexValue? character).isSome = true)
      (following : List Char) :
      readBody quote .between (character :: following) =
        (readBody quote .between following).map (codeUnits character ++ ·) := by
    refine readBody_plain (ne_backslash_of_hexValue? value) ?_ following
    intro isQuote
    rw [isQuote, mark.hexValue?_eq_none] at value
    cases value
  simp only [List.forall_mem_cons] at values
  obtain ⟨firstDigit, secondDigit, thirdDigit, fourthDigit, _⟩ := values
  refine ⟨codeUnits first ++ (codeUnits second ++ (codeUnits third ++ (codeUnits fourth ++
    later))), ?_, ?_⟩
  · rw [same, digit firstDigit, digit secondDigit, digit thirdDigit, digit fourthDigit, readLater]
    rfl
  · have positive (character : Char) : 0 < (codeUnits character).length :=
      List.length_pos_iff.mpr (codeUnits_ne_nil character)
    have := positive first
    have := positive second
    have := positive third
    have := positive fourth
    rw [← whole]
    simp only [List.length_append, List.length_cons]
    omega

/-- No more code units are read than are denoted, and fewer when an escaped `u` names nothing. -/
theorem length_of_readBody (mark : IsMark quote) {glyphs : List Glyph}
    (proper : ∀ glyph ∈ glyphs, Proper glyph) {units : List CodeUnit}
    (read : readBody quote .between ((glyphs.map (kept quote)).flatMap spelling) = some units) :
    units.length ≤ (utf16 (decode glyphs)).length ∧
      (¬NamesAll glyphs → units.length < (utf16 (decode glyphs)).length) := by
  induction glyphs using decode_induction generalizing units with
  | nil => exact ⟨by cases read; exact Nat.le_refl _, fun unnamed => absurd trivial unnamed⟩
  | single glyph rest other ih =>
      obtain ⟨here, properRest⟩ := List.forall_mem_cons.mp proper
      rw [List.map_cons, List.flatMap_cons,
        readBody_single (readable_kept mark here) (mark.kept_ne_unit other),
        mark.value_kept] at read
      obtain ⟨later, readLater, whole⟩ := Option.map_eq_some_iff.mp read
      have bound := ih properRest readLater
      rw [namesAll_single other, decode_single other, utf16_cons, ← whole, List.length_append,
        List.length_append]
      exact ⟨Nat.add_le_add_left bound.1 _, fun unnamed => Nat.add_lt_add_left (bound.2 unnamed) _⟩
  | named first second third fourth rest character coded ih =>
      have properRest := (List.forall_mem_append.mp proper).2
      rw [mark.map_kept_codeGlyphs rest coded, spelling_codeGlyphs, readBody_coded coded] at read
      obtain ⟨later, readLater, whole⟩ := Option.map_eq_some_iff.mp read
      have bound := ih properRest readLater
      rw [namesAll_codeGlyphs rest coded, decode_codeGlyphs rest coded, utf16_cons, ← whole,
        List.length_append, List.length_append]
      exact ⟨Nat.add_le_add_left bound.1 _, fun unnamed => Nat.add_lt_add_left (bound.2 unnamed) _⟩
  | unnamed rest missing ih =>
      -- The reader went on behind the digits, but `ih` is about reading them as characters.
      obtain ⟨_, properRest⟩ := List.forall_mem_cons.mp proper
      rw [List.map_cons, List.flatMap_cons, kept_unit] at read
      obtain ⟨alone, readAlone, longer⟩ :=
        readBody_of_code mark ((readBody_unit _).symm.trans read)
      have bound := (ih properRest readAlone).1
      have less : units.length < (utf16 (decode (escaped 'u' :: rest))).length := by
        rw [decode_unnamed missing, utf16_cons, List.length_append]
        omega
      exact ⟨Nat.le_of_lt less, fun _ => less⟩

theorem readBody_eq_decode_iff (mark : IsMark quote) {glyphs : List Glyph}
    (proper : ∀ glyph ∈ glyphs, Proper glyph) :
    readBody quote .between ((glyphs.map (kept quote)).flatMap spelling) =
      some (utf16 (decode glyphs)) ↔ NamesAll glyphs := by
  constructor
  · intro read
    apply Classical.byContradiction
    intro unnamed
    exact Nat.lt_irrefl _ ((length_of_readBody mark proper read).2 unnamed)
  · exact readBody_of_namesAll mark proper

theorem strip?_quoted (quote : Char) (body : List Char) :
    strip? quote (quote :: (body ++ [quote])) = some body := by
  rw [strip?, if_pos ⟨rfl, List.getLast?_concat⟩, List.dropLast_concat]

end CFamily

namespace Target

theorem grammarLiteral_of_family {target : Target} (family : target = .java ∨ target = .apex)
    (literal : String) :
    target.grammarLiteral literal = CFamily.ofLiteral target.quote target.quote literal := by
  rcases family with same | same <;> rw [same] <;> rfl

/-- A compiler of Java or Apex reads the characters that a literal of the grammar denotes, exactly
when each escaped `u` of the literal is followed by four digits that name a scalar value. -/
theorem readLiteral_grammarLiteral_iff {target : Target}
    (family : target = .java ∨ target = .apex) {literal text : String}
    (decodes : Literal.decode literal = .ok text) :
    ∃ rendered, target.grammarLiteral literal = .ok rendered ∧
      (CFamily.readLiteral target.quote rendered = some (Text.utf16 text.toList) ↔
        Literal.UnitsNamed literal) := by
  obtain ⟨glyphs, cut, same⟩ := Literal.decode_eq_ok_iff.mp decodes
  obtain ⟨body, _, scanned⟩ := Literal.glyphs_eq_ok_iff.mp cut
  refine ⟨_, (grammarLiteral_of_family family literal).trans (CFamily.ofLiteral_eq cut), ?_⟩
  rw [Literal.unitsNamed_iff cut, ← same, String.toList_ofList,
    ← CFamily.readBody_eq_decode_iff target.isMark_quote (Glyph.proper_of_scan scanned)]
  unfold CFamily.readLiteral
  rw [String.toList_ofList, CFamily.strip?_quoted]
  rfl

/-- Dropped and added backslashes right after the digits of a code. -/
theorem readLiteral_grammarLiteral_iff_named :
    Literal.decode "'\\u0041\\0\"\\''" = .ok "A0\"'" ∧
      Target.java.grammarLiteral "'\\u0041\\0\"\\''" = .ok "\"\\u00410\\\"'\"" ∧
      CFamily.readLiteral '"' "\"\\u00410\\\"'\"" = some [65, 48, 34, 39] ∧
      Literal.UnitsNamed "'\\u0041\\0\"\\''" := by
  have decodes : Literal.decode "'\\u0041\\0\"\\''" = .ok "A0\"'" := rfl
  have renders : Target.java.grammarLiteral "'\\u0041\\0\"\\''" = .ok "\"\\u00410\\\"'\"" := rfl
  have read : CFamily.readLiteral '"' "\"\\u00410\\\"'\"" = some [65, 48, 34, 39] := by decide
  obtain ⟨rendered, made, exact⟩ := readLiteral_grammarLiteral_iff (Or.inl rfl) decodes
  rw [renders] at made
  cases made
  exact ⟨decodes, renders, read, exact.mp read⟩

end Target

end LiteralGrammar
