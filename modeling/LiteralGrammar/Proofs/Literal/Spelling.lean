/-
Decoding gives back what was spelled, however it was spelled.

A spelling is cut into glyphs of its own, which denote their character wherever
they stand: the digits of a code are counted, so nothing after them can join
them, and a backslash that is written by a backslash takes nothing else.  Only an
escaped `u` without a code looks ahead, at the text that follows it.
-/

import LiteralGrammar.Literal.Spelling
import LiteralGrammar.Proofs.Target.Passes

namespace LiteralGrammar

namespace Text

/-- Four characters are no numeral when one of them is no digit. -/
theorem hexWord?_eq_none_iff (first second third fourth : Char) :
    hexWord? first second third fourth = none ↔
      ∃ character ∈ [first, second, third, fourth], hexValue? character = none := by
  constructor
  · intro missing
    apply Classical.byContradiction
    intro digits
    simp only [List.mem_cons, List.not_mem_nil, or_false, exists_eq_or_imp, exists_eq_left,
      not_or, ← ne_eq, Option.ne_none_iff_exists'] at digits
    obtain ⟨⟨a, firstAt⟩, ⟨b, secondAt⟩, ⟨c, thirdAt⟩, ⟨d, fourthAt⟩⟩ := digits
    have found := hexWord?_eq_some_iff.mpr
      ⟨a, b, c, d, firstAt, secondAt, thirdAt, fourthAt, rfl⟩
    rw [missing] at found
    cases found
  · rintro ⟨character, member, noDigit⟩
    apply Classical.byContradiction
    intro found
    obtain ⟨code, read⟩ := Option.ne_none_iff_exists'.mp found
    have digit := hexValue?_of_hexWord? read character member
    rw [noDigit] at digit
    cases digit

end Text

namespace Glyph

/-- Whether glyphs denote a text whatever stands after them. -/
def Means (glyphs : List Glyph) (text : List Char) : Prop :=
  ∀ rest, decode (glyphs ++ rest) = text ++ decode rest

theorem means_single {glyph : Glyph} (other : glyph ≠ escaped 'u') :
    Means [glyph] [glyph.value] :=
  fun rest => decode_single other rest

theorem means_codeGlyphs {first second third fourth character : Char}
    (coded : coded? first second third fourth = some character) :
    Means (codeGlyphs first second third fourth) [character] :=
  fun rest => decode_codeGlyphs rest coded

theorem Means.append {left right : List Glyph} {start later : List Char}
    (here : Means left start) (behind : Means right later) :
    Means (left ++ right) (start ++ later) := by
  intro rest
  rw [List.append_assoc, here, behind, List.append_assoc]

theorem Means.decode_eq {glyphs : List Glyph} {text : List Char} (means : Means glyphs text) :
    decode glyphs = text := by
  have whole := means []
  rw [List.append_nil, decode_nil, List.append_nil] at whole
  exact whole

theorem named?_isSome_iff_opensWithCode {text : List Char} {glyphs : List Glyph}
    (scanned : scan text = some glyphs) :
    (named? glyphs).isSome = true ↔ Literal.OpensWithCode text := by
  rw [named?_isSome_iff, flatMap_spelling_of_scan scanned]
  exact Iff.rfl

end Glyph

namespace Literal

open Glyph

/-! ### Codes -/

theorem isValidChar_iff_of_lt {code : Nat} (small : code < 65536) :
    code.isValidChar ↔ ¬(0xD800 ≤ code ∧ code ≤ 0xDFFF) := by
  unfold Nat.isValidChar
  omega

/-- There are three ways not to name a character: too few characters, a character that is no
digit, and the code of a surrogate. -/
theorem not_opensWithCode_iff (text : List Char) :
    ¬OpensWithCode text ↔ text.length < 4 ∨
      (∃ character ∈ text.take 4, Text.hexValue? character = none) ∨
      ∃ first second third fourth rest code, text = first :: second :: third :: fourth :: rest ∧
        Text.hexWord? first second third fourth = some code ∧ 0xD800 ≤ code ∧ code ≤ 0xDFFF := by
  constructor
  · intro nameless
    match text with
    | [] => exact Or.inl (by decide : 0 < 4)
    | [_] => exact Or.inl (by decide : 1 < 4)
    | [_, _] => exact Or.inl (by decide : 2 < 4)
    | [_, _, _] => exact Or.inl (by decide : 3 < 4)
    | first :: second :: third :: fourth :: rest =>
        right
        cases read : Text.hexWord? first second third fourth with
        | none => exact Or.inl ((Text.hexWord?_eq_none_iff _ _ _ _).mp read)
        | some code =>
            refine Or.inr ⟨first, second, third, fourth, rest, code, rfl, read, ?_⟩
            apply Classical.byContradiction
            intro scalar
            exact nameless ⟨first, second, third, fourth, rest, code, rfl, read,
              (isValidChar_iff_of_lt (Text.hexWord?_lt read)).mpr scalar⟩
  · rintro ways ⟨first, second, third, fourth, rest, code, rfl, read, valid⟩
    rcases ways with few | foreign | ⟨_, _, _, _, _, other, same, readToo, surrogate⟩
    · simp only [List.length_cons] at few
      omega
    · rw [(Text.hexWord?_eq_none_iff _ _ _ _).mpr foreign] at read
      cases read
    · cases same
      rw [read] at readToo
      cases readToo
      exact (isValidChar_iff_of_lt (Text.hexWord?_lt read)).mp valid surrogate

/-! ### Spellings -/

theorem meaning_of_named {letter character : Char}
    (known : (letter, character) ∈ namedCharacters) :
    letter ≠ 'u' ∧ meaning letter = character := by
  simp only [namedCharacters, List.mem_cons, Prod.mk.injEq, List.not_mem_nil, or_false] at known
  rcases known with ⟨rfl, rfl⟩ | ⟨rfl, rfl⟩ | ⟨rfl, rfl⟩ | ⟨rfl, rfl⟩ | ⟨rfl, rfl⟩
  all_goals decide

theorem meaning_of_free {character : Char} (free : character ∉ reservedLetters) :
    character ≠ 'u' ∧ meaning character = character := by
  simp only [reservedLetters, List.mem_cons, List.not_mem_nil, or_false, not_or] at free
  unfold meaning
  simp [free]

theorem coded?_of_value {first second third fourth character : Char}
    (value : Text.hexWord? first second third fourth = some character.toNat) :
    coded? first second third fourth = some character :=
  coded?_eq_some_iff.mpr
    ⟨character.toNat, value, character.valid, Char.ofNat_toNat character⟩

theorem Spells.exists_glyphs {character : Char} {written : List Char}
    (spelled : Spells character written) :
    ∃ glyphs, scan written = some glyphs ∧ Means glyphs [character] := by
  cases spelled with
  | itself ordinary =>
      exact ⟨[plain character], if_neg ordinary, means_single Glyph.noConfusion⟩
  | named letter known =>
      obtain ⟨other, meant⟩ := meaning_of_named known
      refine ⟨[.escaped letter], scan_escaped letter [], ?_⟩
      rw [← meant]
      exact means_single (fun same => other (Glyph.escaped.inj same))
  | escaped free =>
      obtain ⟨other, itself⟩ := meaning_of_free free
      refine ⟨[.escaped character], scan_escaped character [], ?_⟩
      have means := means_single (fun same => other (Glyph.escaped.inj same))
      rwa [value, itself] at means
  | coded first second third fourth value =>
      exact ⟨codeGlyphs first second third fourth, scan_codeGlyphs value,
        means_codeGlyphs (coded?_of_value value)⟩

theorem SpellsAll.exists_glyphs {text written : List Char} (spelled : SpellsAll text written) :
    ∃ glyphs, scan written = some glyphs ∧ Means glyphs text := by
  induction spelled with
  | nil => exact ⟨[], rfl, fun _ => rfl⟩
  | cons head _ ih =>
      obtain ⟨here, headScanned, headMeans⟩ := head.exists_glyphs
      obtain ⟨behind, tailScanned, tailMeans⟩ := ih
      refine ⟨here ++ behind, ?_, headMeans.append tailMeans⟩
      rw [scan_append headScanned, tailScanned]
      rfl

/-! ### Literals -/

theorem toOption_decode_enclose (body : List Char) :
    (decode (enclose body)).toOption =
      (scan body).map (fun glyphs => String.ofList (Glyph.decode glyphs)) := by
  unfold decode
  rw [glyphs_enclose]
  cases scan body with
  | none => rfl
  | some glyphs => rfl

theorem decode_enclose_of_scan {body : List Char} {glyphs : List Glyph}
    (scanned : scan body = some glyphs) :
    decode (enclose body) = .ok (String.ofList (Glyph.decode glyphs)) := by
  unfold decode
  rw [glyphs_enclose, scanned]
  rfl

theorem decode_enclose_of_spellsAll {text written : List Char}
    (spelled : SpellsAll text written) :
    decode (enclose written) = .ok (String.ofList text) := by
  obtain ⟨glyphs, scanned, means⟩ := spelled.exists_glyphs
  rw [decode_enclose_of_scan scanned, means.decode_eq]

/-- Whatever spelling is chosen for each character of a text, the spellings side by side decode to
the text.  An escaped `u` without four digits that name a scalar value decodes to the letter, and
what follows it is decoded as if it stood alone; it lacks them if there are too few characters, if
one of the four is no digit, or if they are the code of a surrogate.  Decoding in one pass that
looks ahead in bytes is no different. -/
theorem decode_spelled :
    (∀ text written, SpellsAll text written →
      decode (enclose written) = .ok (String.ofList text)) ∧
    (∀ text written rest, SpellsAll text written → ¬OpensWithCode rest →
      (decode (enclose (written ++ '\\' :: 'u' :: rest))).toOption =
        (decode (enclose rest)).toOption.map (fun later =>
          String.ofList (text ++ 'u' :: later.toList))) ∧
    (∀ rest, ¬OpensWithCode rest ↔ rest.length < 4 ∨
      (∃ character ∈ rest.take 4, Text.hexValue? character = none) ∨
      ∃ first second third fourth later code,
        rest = first :: second :: third :: fourth :: later ∧
          Text.hexWord? first second third fourth = some code ∧
          0xD800 ≤ code ∧ code ≤ 0xDFFF) ∧
    ∀ literal, decodePass literal = decode literal := by
  refine ⟨fun text written spelled => decode_enclose_of_spellsAll spelled, ?_,
    not_opensWithCode_iff, decodePass_eq⟩
  intro text written rest spelled nameless
  obtain ⟨glyphs, scanned, means⟩ := spelled.exists_glyphs
  rw [toOption_decode_enclose, toOption_decode_enclose, scan_append scanned, scan_escaped]
  cases later : scan rest with
  | none => rfl
  | some following =>
      have missing : named? following = none := by
        rw [← Option.not_isSome_iff_eq_none, named?_isSome_iff_opensWithCode later]
        exact nameless
      simp only [Option.map_some, String.toList_ofList]
      rw [means, decode_unnamed missing]

/-- Digits behind a code that is complete, a backslash before a `u`, and two escaped `u` without a
code between two that have one. -/
theorem decode_spelled_crowded :
    SpellsAll "\\uA0\n".toList "\\\\u\\u00410\\u000A".toList ∧
      decode "'\\\\u\\u00410\\u000A'" = .ok "\\uA0\n" ∧
      SpellsAll ['A'] "\\u0041".toList ∧ ¬OpensWithCode "\\u\\u00e9".toList ∧
      (decode "'\\u0041\\u\\u\\u00e9'").toOption = some "Auué" := by
  have spelled : SpellsAll "\\uA0\n".toList "\\\\u\\u00410\\u000A".toList :=
    .cons (.escaped (by decide)) (.cons (.itself (by decide))
      (.cons (.coded '0' '0' '4' '1' (by decide)) (.cons (.itself (by decide))
        (.cons (.coded '0' '0' '0' 'A' (by decide)) .nil))))
  have letter : SpellsAll ['A'] "\\u0041".toList :=
    .cons (.coded '0' '0' '4' '1' (by decide)) .nil
  obtain ⟨exact, unnamed, ways, _⟩ := decode_spelled
  have nameless : ¬OpensWithCode "\\u\\u00e9".toList :=
    (ways _).mpr (.inr (.inl ⟨'\\', by decide, by decide⟩))
  exact ⟨spelled, exact _ _ spelled, letter, nameless, unnamed _ _ _ letter nameless⟩

end Literal

end LiteralGrammar
