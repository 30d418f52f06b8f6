/-
Glyphs of a text, and what they denote.

The glyphs of a text are those that spell it without an unescaped backslash, so
cutting and spelling undo each other.  Hexadecimal digits are never backslashes:
whether an escaped `u` names a character can be seen in the text that follows it.
-/

import LiteralGrammar.Literal.Basic
import LiteralGrammar.Proofs.Fault

namespace LiteralGrammar

namespace Text

theorem hexWord?_eq_some_iff {first second third fourth : Char} {code : Nat} :
    hexWord? first second third fourth = some code ↔
      ∃ a b c d, hexValue? first = some a ∧ hexValue? second = some b ∧
        hexValue? third = some c ∧ hexValue? fourth = some d ∧
        ((a * 16 + b) * 16 + c) * 16 + d = code := by
  simp [hexWord?, Option.bind_eq_some_iff]

/-- Each digit of a numeral has a value. -/
theorem hexValue?_of_hexWord? {first second third fourth : Char} {code : Nat}
    (read : hexWord? first second third fourth = some code) :
    ∀ digit ∈ [first, second, third, fourth], (hexValue? digit).isSome = true := by
  obtain ⟨a, b, c, d, firstAt, secondAt, thirdAt, fourthAt, _⟩ := hexWord?_eq_some_iff.mp read
  simp [firstAt, secondAt, thirdAt, fourthAt]

end Text

namespace Glyph

/-! ### Cutting and spelling -/

/-- A glyph that a text can be cut into. -/
def Proper : Glyph → Prop
  | plain character => character ≠ '\\'
  | escaped _ => True

theorem proper_of_scan {characters : List Char} {glyphs : List Glyph}
    (scanned : scan characters = some glyphs) : ∀ glyph ∈ glyphs, Proper glyph := by
  induction characters using scan.induct generalizing glyphs with
  | case1 =>
      cases scanned
      exact List.forall_mem_nil _
  | case2 =>
      rw [scan_lone_escape] at scanned
      cases scanned
  | case3 last ordinary =>
      rw [scan, if_neg ordinary] at scanned
      cases scanned
      exact List.forall_mem_singleton.mpr ordinary
  | case4 taken rest ih =>
      rw [scan_escaped] at scanned
      obtain ⟨later, found, same⟩ := Option.map_eq_some_iff.mp scanned
      rw [← same]
      exact List.forall_mem_cons.mpr ⟨trivial, ih found⟩
  | case5 head taken rest ordinary ih =>
      rw [scan_plain ordinary] at scanned
      obtain ⟨later, found, same⟩ := Option.map_eq_some_iff.mp scanned
      rw [← same]
      exact List.forall_mem_cons.mpr ⟨ordinary, ih found⟩

theorem scan_spelling_append {glyphs : List Glyph} (proper : ∀ glyph ∈ glyphs, Proper glyph)
    (right : List Char) :
    scan (glyphs.flatMap spelling ++ right) = (scan right).map (glyphs ++ ·) := by
  induction glyphs with
  | nil =>
      change scan right = (scan right).map id
      rw [Option.map_id, id]
  | cons glyph rest ih =>
      obtain ⟨here, later⟩ := List.forall_mem_cons.mp proper
      rw [List.flatMap_cons, List.append_assoc]
      cases glyph with
      | plain character =>
          change scan (character :: (rest.flatMap spelling ++ right)) = _
          rw [scan_plain here, ih later, Option.map_map]
          rfl
      | escaped character =>
          change scan ('\\' :: character :: (rest.flatMap spelling ++ right)) = _
          rw [scan_escaped, ih later, Option.map_map]
          rfl

/-- Spelling undoes cutting and cutting undoes spelling. -/
theorem scan_eq_some_iff (characters : List Char) (glyphs : List Glyph) :
    scan characters = some glyphs ↔
      glyphs.flatMap spelling = characters ∧ ∀ glyph ∈ glyphs, Proper glyph := by
  constructor
  · intro scanned
    exact ⟨flatMap_spelling_of_scan scanned, proper_of_scan scanned⟩
  · intro ⟨spelled, proper⟩
    have cut := scan_spelling_append proper []
    rw [List.append_nil, spelled] at cut
    rw [cut]
    exact congrArg some (List.append_nil glyphs)

/-- A text whose start can be cut by itself is cut there. -/
theorem scan_append {left : List Char} {glyphs : List Glyph} (scanned : scan left = some glyphs)
    (right : List Char) : scan (left ++ right) = (scan right).map (glyphs ++ ·) := by
  rw [← flatMap_spelling_of_scan scanned]
  exact scan_spelling_append (proper_of_scan scanned) right

/-- Other characters than the backslash are spelled by plain glyphs only. -/
theorem plain_of_spelling {glyphs : List Glyph} {character : Char} {rest : List Char}
    (spelled : glyphs.flatMap spelling = character :: rest) (ordinary : character ≠ '\\') :
    ∃ later, glyphs = plain character :: later ∧ later.flatMap spelling = rest := by
  cases glyphs with
  | nil => cases spelled
  | cons glyph later =>
      rw [List.flatMap_cons] at spelled
      cases glyph with
      | plain other =>
          obtain ⟨same, tail⟩ := List.cons.inj spelled
          exact ⟨later, by rw [same], tail⟩
      | escaped other => exact absurd (List.cons.inj spelled).1.symm ordinary

/-! ### Names by codes -/

theorem coded?_eq_some_iff {first second third fourth character : Char} :
    coded? first second third fourth = some character ↔
      ∃ code, Text.hexWord? first second third fourth = some code ∧ code.isValidChar ∧
        Char.ofNat code = character := by
  unfold coded?
  cases Text.hexWord? first second third fourth with
  | none => simp
  | some code => simp

theorem named?_eq_some_iff {glyphs : List Glyph} {character : Char} :
    named? glyphs = some character ↔ ∃ first second third fourth rest,
      glyphs = plain first :: plain second :: plain third :: plain fourth :: rest ∧
        coded? first second third fourth = some character := by
  constructor
  · intro found
    unfold named? at found
    split at found
    · exact ⟨_, _, _, _, _, rfl, found⟩
    · cases found
  · intro ⟨first, second, third, fourth, rest, same, found⟩
    rw [same]
    exact found

theorem ne_backslash_of_hexValue? {digit : Char} (read : (Text.hexValue? digit).isSome = true) :
    digit ≠ '\\' := by
  intro same
  rw [same] at read
  cases read

/-- Four digits of a text are four plain glyphs. -/
theorem plain_digits_of_spelling {glyphs : List Glyph} {first second third fourth : Char}
    {rest : List Char}
    (spelled : glyphs.flatMap spelling = first :: second :: third :: fourth :: rest)
    (digits : ∀ digit ∈ [first, second, third, fourth],
      (Text.hexValue? digit).isSome = true) :
    ∃ later, glyphs = plain first :: plain second :: plain third :: plain fourth :: later := by
  simp only [List.forall_mem_cons] at digits
  obtain ⟨firstDigit, secondDigit, thirdDigit, fourthDigit, _⟩ := digits
  obtain ⟨_, rfl, fromSecond⟩ :=
    plain_of_spelling spelled (ne_backslash_of_hexValue? firstDigit)
  obtain ⟨_, rfl, fromThird⟩ :=
    plain_of_spelling fromSecond (ne_backslash_of_hexValue? secondDigit)
  obtain ⟨_, rfl, fromFourth⟩ :=
    plain_of_spelling fromThird (ne_backslash_of_hexValue? thirdDigit)
  obtain ⟨later, rfl, _⟩ :=
    plain_of_spelling fromFourth (ne_backslash_of_hexValue? fourthDigit)
  exact ⟨later, rfl⟩

/-- What the text says after an escaped `u`, its glyphs say too. -/
theorem named?_isSome_iff (glyphs : List Glyph) :
    (named? glyphs).isSome = true ↔ ∃ first second third fourth rest code,
      glyphs.flatMap spelling = first :: second :: third :: fourth :: rest ∧
        Text.hexWord? first second third fourth = some code ∧ code.isValidChar := by
  rw [Option.isSome_iff_exists]
  constructor
  · intro ⟨character, found⟩
    obtain ⟨first, second, third, fourth, rest, same, coded⟩ := named?_eq_some_iff.mp found
    obtain ⟨code, read, valid, _⟩ := coded?_eq_some_iff.mp coded
    rw [same]
    exact ⟨first, second, third, fourth, rest.flatMap spelling, code, rfl, read, valid⟩
  · intro ⟨first, second, third, fourth, rest, code, spelled, read, valid⟩
    obtain ⟨later, same⟩ := plain_digits_of_spelling spelled (Text.hexValue?_of_hexWord? read)
    exact ⟨Char.ofNat code, named?_eq_some_iff.mpr
      ⟨first, second, third, fourth, later, same,
        coded?_eq_some_iff.mpr ⟨code, read, valid, rfl⟩⟩⟩

theorem namesAll_iff (glyphs : List Glyph) :
    NamesAll glyphs ↔ ∀ before after, glyphs = before ++ escaped 'u' :: after →
      (named? after).isSome = true := by
  induction glyphs with
  | nil =>
      refine iff_of_true trivial ?_
      intro before after split
      exact absurd split.symm (List.append_ne_nil_of_right_ne_nil _ (List.cons_ne_nil _ _))
  | cons glyph rest ih =>
      rw [NamesAll, ih]
      constructor
      · intro ⟨here, later⟩ before after split
        cases before with
        | nil =>
            obtain ⟨same, tail⟩ := List.cons.inj split
            rw [← tail]
            exact here same
        | cons _ others => exact later others after (List.cons.inj split).2
      · intro all
        exact ⟨fun same => all [] rest (by rw [same]; rfl),
          fun before after split => all (glyph :: before) after (by rw [split]; rfl)⟩

/-! ### Decoding -/

/-- The character that a glyph denotes by itself. -/
def value : Glyph → Char
  | plain character => character
  | escaped character => meaning character

theorem decode_single {glyph : Glyph} (other : glyph ≠ escaped 'u') (rest : List Glyph) :
    decode (glyph :: rest) = glyph.value :: decode rest := by
  cases glyph with
  | plain character => exact decode_plain character rest
  | escaped character => exact decode_escaped (fun same => other (congrArg escaped same)) rest

/-- An escaped `u` and four digits after it. -/
def codeGlyphs (first second third fourth : Char) : List Glyph :=
  [escaped 'u', plain first, plain second, plain third, plain fourth]

theorem spelling_codeGlyphs (first second third fourth : Char) (rest : List Glyph) :
    (codeGlyphs first second third fourth ++ rest).flatMap spelling =
      '\\' :: 'u' :: first :: second :: third :: fourth :: rest.flatMap spelling := rfl

theorem scan_codeGlyphs {first second third fourth : Char} {code : Nat}
    (read : Text.hexWord? first second third fourth = some code) :
    scan ['\\', 'u', first, second, third, fourth] =
      some (codeGlyphs first second third fourth) := by
  have digits := Text.hexValue?_of_hexWord? read
  rw [scan_eq_some_iff]
  refine ⟨rfl, List.forall_mem_cons.mpr ⟨trivial, ?_⟩⟩
  simp only [List.forall_mem_cons] at digits ⊢
  obtain ⟨firstDigit, secondDigit, thirdDigit, fourthDigit, _⟩ := digits
  exact ⟨ne_backslash_of_hexValue? firstDigit, ne_backslash_of_hexValue? secondDigit,
    ne_backslash_of_hexValue? thirdDigit, ne_backslash_of_hexValue? fourthDigit,
    List.forall_mem_nil _⟩

theorem decode_codeGlyphs {first second third fourth character : Char} (rest : List Glyph)
    (coded : coded? first second third fourth = some character) :
    decode (codeGlyphs first second third fourth ++ rest) = character :: decode rest :=
  decode_named (named?_eq_some_iff.mpr ⟨first, second, third, fourth, rest, rfl, coded⟩)

theorem namesAll_single {glyph : Glyph} (other : glyph ≠ escaped 'u') (rest : List Glyph) :
    NamesAll (glyph :: rest) ↔ NamesAll rest :=
  and_iff_right (fun same => absurd same other)

theorem namesAll_codeGlyphs {first second third fourth character : Char} (rest : List Glyph)
    (coded : coded? first second third fourth = some character) :
    NamesAll (codeGlyphs first second third fourth ++ rest) ↔ NamesAll rest := by
  simp [codeGlyphs, NamesAll, named?, coded]

/-- Induction along decoding: an escaped `u` that names a character goes together with its
digits, any other glyph goes by itself. -/
@[elab_as_elim]
theorem decode_induction {motive : List Glyph → Prop} (nil : motive [])
    (single : ∀ glyph rest, glyph ≠ escaped 'u' → motive rest → motive (glyph :: rest))
    (named : ∀ first second third fourth rest character,
      coded? first second third fourth = some character → motive rest →
        motive (codeGlyphs first second third fourth ++ rest))
    (unnamed : ∀ rest, named? rest = none → motive rest → motive (escaped 'u' :: rest))
    (glyphs : List Glyph) : motive glyphs := by
  match glyphs with
  | [] => exact nil
  | glyph :: rest =>
      by_cases unit : glyph = escaped 'u'
      · subst unit
        cases found : named? rest with
        | none => exact unnamed rest found (decode_induction nil single named unnamed rest)
        | some character =>
            obtain ⟨first, second, third, fourth, later, same, coded⟩ :=
              named?_eq_some_iff.mp found
            subst same
            exact named first second third fourth later character coded
              (decode_induction nil single named unnamed later)
      · exact single glyph rest unit (decode_induction nil single named unnamed rest)
termination_by glyphs.length

end Glyph

namespace Literal

/-! ### Literals -/

theorem glyphs_eq_ok_iff {literal : String} {glyphs : List Glyph} :
    Literal.glyphs literal = .ok glyphs ↔ ∃ body, interior? literal.toList = some body ∧
      Glyph.scan body = some glyphs := by
  unfold Literal.glyphs
  cases interior? literal.toList with
  | none => simp
  | some body =>
      simp only [Option.some.injEq, exists_eq_left']
      cases Glyph.scan body <;> simp

theorem decode_eq_ok_iff {literal text : String} :
    decode literal = .ok text ↔ ∃ glyphs, Literal.glyphs literal = .ok glyphs ∧
      String.ofList (Glyph.decode glyphs) = text :=
  map_eq_ok_iff

/-- Whether every escaped `u` inside a literal is followed by four digits that name a scalar
value.  A backslash escapes when what stands before it is made of whole glyphs. -/
def UnitsNamed (literal : String) : Prop :=
  ∀ before after, interior? literal.toList = some (before ++ '\\' :: 'u' :: after) →
    (Glyph.scan before).isSome = true →
    ∃ first second third fourth rest code, after = first :: second :: third :: fourth :: rest ∧
      Text.hexWord? first second third fourth = some code ∧ code.isValidChar

theorem unitsNamed_iff {literal : String} {glyphs : List Glyph}
    (cut : Literal.glyphs literal = .ok glyphs) :
    UnitsNamed literal ↔ Glyph.NamesAll glyphs := by
  obtain ⟨body, inside, scanned⟩ := glyphs_eq_ok_iff.mp cut
  obtain ⟨spelled, proper⟩ := (Glyph.scan_eq_some_iff _ _).mp scanned
  unfold UnitsNamed
  rw [Glyph.namesAll_iff, inside]
  constructor
  · intro named before after split
    rw [Glyph.named?_isSome_iff]
    apply named (before.flatMap Glyph.spelling) (after.flatMap Glyph.spelling)
    · rw [← spelled, split, List.flatMap_append]
      rfl
    · rw [(Glyph.scan_eq_some_iff _ before).mpr ⟨rfl, fun glyph member =>
        proper glyph (split ▸ List.mem_append_left _ member)⟩]
      rfl
  · intro named before after split whole
    obtain ⟨earlier, beforeScanned⟩ := Option.isSome_iff_exists.mp whole
    rw [Option.some.inj split, Glyph.scan_append beforeScanned, Glyph.scan_escaped,
      Option.map_map] at scanned
    obtain ⟨later, afterScanned, same⟩ := Option.map_eq_some_iff.mp scanned
    rw [← Glyph.flatMap_spelling_of_scan afterScanned, ← Glyph.named?_isSome_iff]
    exact named earlier later same.symm

end Literal

end LiteralGrammar
