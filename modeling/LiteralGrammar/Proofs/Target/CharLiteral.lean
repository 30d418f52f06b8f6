/-
Character literals of the C family.

A character is written in one of three forms: by its name, as itself where it is
printable, or by its code units.  The first two and a single unit are spellings
of literals of the grammar, so those literals are decoded like any other; two
units are the surrogates of one character, which only a compiler puts together.
-/

import LiteralGrammar.Proofs.Literal.Spelling
import LiteralGrammar.Proofs.Target.RawText

namespace LiteralGrammar

namespace CFamily

open Glyph Text

/-! ### Forms of a character -/

theorem charBody_cases (character : Char) :
    (∃ name, nameOf? character = some name ∧
        charBody EscapeTable.cFamily character = ['\\', name]) ∨
      (nameOf? character = none ∧ isPrintableAscii character = true ∧
        charBody EscapeTable.cFamily character = [character]) ∨
      charBody EscapeTable.cFamily character =
        (codeUnits character).flatMap (unitEscape .upper) := by
  unfold charBody
  rw [lookup_cFamily]
  cases named : nameOf? character with
  | some name => exact Or.inl ⟨name, rfl, String.toList_ofList⟩
  | none =>
      by_cases printable : isPrintableAscii character = true
      · exact Or.inr (Or.inl ⟨rfl, printable, if_pos printable⟩)
      · exact Or.inr (Or.inr (if_neg printable))

/-! ### Printable text -/

theorem isPrintableAscii_of_nameOf? {character name : Char}
    (named : nameOf? character = some name) : isPrintableAscii name = true := by
  unfold nameOf? at named
  repeat' split at named
  all_goals cases named
  all_goals decide

theorem isPrintableAscii_hexDigit (letters : LetterCase) {value : Nat} (small : value < 16) :
    isPrintableAscii (hexDigit letters value) = true := by
  have all : ∀ value : Fin 16, isPrintableAscii (hexDigit letters value.val) = true := by
    cases letters <;> decide
  exact all ⟨value, small⟩

theorem isPrintableAscii_unitEscape (letters : LetterCase) (unit : CodeUnit) :
    ∀ written ∈ unitEscape letters unit, isPrintableAscii written = true := by
  unfold unitEscape hexWord
  simp only [List.forall_mem_cons]
  exact ⟨by decide, by decide, isPrintableAscii_hexDigit letters (Nat.mod_lt _ (by decide)),
    isPrintableAscii_hexDigit letters (Nat.mod_lt _ (by decide)),
    isPrintableAscii_hexDigit letters (Nat.mod_lt _ (by decide)),
    isPrintableAscii_hexDigit letters (Nat.mod_lt _ (by decide)), List.forall_mem_nil _⟩

theorem isPrintableAscii_charBody (character : Char) :
    ∀ written ∈ charBody EscapeTable.cFamily character, isPrintableAscii written = true := by
  rcases charBody_cases character with ⟨name, named, form⟩ | ⟨_, printable, form⟩ | form
  · rw [form]
    exact List.forall_mem_cons.mpr
      ⟨by decide, List.forall_mem_singleton.mpr (isPrintableAscii_of_nameOf? named)⟩
  · rw [form]
    exact List.forall_mem_singleton.mpr printable
  · rw [form]
    intro written member
    obtain ⟨unit, _, inside⟩ := List.mem_flatMap.mp member
    exact isPrintableAscii_unitEscape .upper unit written inside

/-! ### What a compiler reads -/

theorem readBody_unitEscape (quote : Char) (letters : LetterCase) (unit : CodeUnit)
    (rest : List Char) :
    readBody quote .between (unitEscape letters unit ++ rest) =
      (readBody quote .between rest).map (unit :: ·) := by
  refine (readBody_numeral (hexWord?_hexWord letters unit) rest).trans ?_
  rw [UInt16.ofNat_toNat]

theorem readBody_units (quote : Char) (letters : LetterCase) (units : List CodeUnit) :
    readBody quote .between (units.flatMap (unitEscape letters)) = some units := by
  induction units with
  | nil => rfl
  | cons unit rest ih =>
      rw [List.flatMap_cons, readBody_unitEscape, ih]
      rfl

theorem readBody_charBody (character : Char) :
    readBody '\'' .between (charBody EscapeTable.cFamily character) =
      some (codeUnits character) := by
  rcases charBody_cases character with ⟨name, named, form⟩ | ⟨nameless, _, form⟩ | form
  · rw [form, readBody_escape (reads_of_nameOf? named).1]
    exact congrArg some (List.append_nil _)
  · obtain ⟨ordinary, different, _⟩ := ne_of_nameOf?_eq_none nameless
    rw [form, readBody_plain ordinary different]
    exact congrArg some (List.append_nil _)
  · rw [form, readBody_units]

/-! ### What a grammar reads -/

theorem spells_of_nameOf? {character name : Char} (named : nameOf? character = some name) :
    Literal.Spells character ['\\', name] := by
  unfold nameOf? at named
  repeat' split at named
  all_goals cases named
  all_goals subst character
  · exact .escaped (by decide)
  · exact .escaped (by decide)
  · exact .escaped (by decide)
  · exact .named 'f' (by decide)
  · exact .named 'b' (by decide)
  · exact .named 't' (by decide)
  · exact .named 'r' (by decide)
  · exact .named 'n' (by decide)

/-- A character of the first plane is spelled as a grammar may spell it. -/
theorem spells_charBody {character : Char} (small : character.toNat ≤ 0xFFFF) :
    Literal.Spells character (charBody EscapeTable.cFamily character) := by
  rcases charBody_cases character with ⟨name, named, form⟩ | ⟨nameless, _, form⟩ | form
  · rw [form]
    exact spells_of_nameOf? named
  · rw [form]
    exact .itself (ne_of_nameOf?_eq_none nameless).1
  · have bound : character.toNat < 0x10000 := by omega
    have unit : (UInt16.ofNat character.toNat).toNat = character.toNat :=
      UInt16.toNat_ofNat_of_lt' bound
    rw [form, codeUnits_of_lt bound, List.flatMap_singleton]
    exact .coded _ _ _ _ ((hexWord?_hexWord .upper _).trans (congrArg some unit))

end CFamily

namespace Literal

theorem charValue_of_singleton {literal : String} {character : Char}
    (decodes : decode literal = .ok (String.singleton character)) :
    charValue literal = .ok (some character) := by
  refine map_eq_ok_iff.mpr ⟨_, decodes, ?_⟩
  rw [String.toList_singleton]

theorem charValue_of_length_ne_one {literal text : String} (decodes : decode literal = .ok text)
    (several : text.length ≠ 1) : charValue literal = .ok none := by
  refine map_eq_ok_iff.mpr ⟨text, decodes, ?_⟩
  split
  · rename_i character single
    rw [← String.length_toList, single] at several
    exact absurd rfl several
  · rfl

theorem charValue_enclose_of_spells {character : Char} {written : List Char}
    (spelled : Spells character written) : charValue (enclose written) = .ok (some character) := by
  have all : SpellsAll [character] (written ++ []) := .cons spelled .nil
  rw [List.append_nil] at all
  exact charValue_of_singleton (decode_enclose_of_spellsAll all)

end Literal

namespace Target

open CFamily

theorem charLiteral_of_some {target : Target} (family : target = .java ∨ target = .apex)
    {literal : String} {character : Char}
    (denoted : Literal.charValue literal = .ok (some character)) :
    target.charLiteral literal =
      .ok (Literal.enclose (charBody EscapeTable.cFamily character)) := by
  rcases family with rfl | rfl
  · exact congrArg (Except.map _) denoted
  · exact congrArg (Except.map _) denoted

theorem charLiteral_of_none {target : Target} (family : target = .java ∨ target = .apex)
    {literal : String} (denoted : Literal.charValue literal = .ok none) :
    target.charLiteral literal = .ok "'\\u0000'" := by
  rcases family with rfl | rfl
  · exact congrArg (Except.map _) denoted
  · exact congrArg (Except.map _) denoted

/-- The literal for a character is printable and stands between single quotes, and a compiler of
Java or Apex reads the character from it.  One for a character of the first plane denotes this
character in a grammar too, so it stays as it is when it is made again.  Where a literal does not
denote exactly one character, the literal for the character zero is written. -/
theorem charLiteral_denotes {target : Target} (family : target = .java ∨ target = .apex) :
    (∀ literal character, Literal.decode literal = .ok (String.singleton character) →
      ∃ rendered body, target.charLiteral literal = .ok rendered ∧
        rendered.toList = '\'' :: (body ++ ['\'']) ∧
        (∀ written ∈ rendered.toList, isPrintableAscii written = true) ∧
        readLiteral '\'' rendered = some (Text.codeUnits character) ∧
        (character.toNat ≤ 0xFFFF → Literal.charValue rendered = .ok (some character) ∧
          target.charLiteral rendered = .ok rendered)) ∧
    ∀ literal text zero, Literal.decode literal = .ok text → text.length ≠ 1 →
      Literal.decode zero = .ok "\x00" →
        target.charLiteral literal = .ok "'\\u0000'" ∧
          target.charLiteral zero = .ok "'\\u0000'" := by
  constructor
  · intro literal character decodes
    have denoted := Literal.charValue_of_singleton decodes
    have whole : (Literal.enclose (charBody EscapeTable.cFamily character)).toList =
        '\'' :: (charBody EscapeTable.cFamily character ++ ['\'']) := String.toList_ofList
    refine ⟨_, charBody EscapeTable.cFamily character, charLiteral_of_some family denoted, whole,
      ?_, ?_, ?_⟩
    · rw [whole, List.forall_mem_cons, List.forall_mem_append, List.forall_mem_singleton]
      exact ⟨by decide, isPrintableAscii_charBody character, by decide⟩
    · unfold readLiteral
      rw [whole, strip?_quoted]
      exact readBody_charBody character
    · intro small
      have again := Literal.charValue_enclose_of_spells (spells_charBody small)
      exact ⟨again, charLiteral_of_some family again⟩
  · intro literal text zero decodes several decodesZero
    have unclear := Literal.charValue_of_length_ne_one decodes several
    have denoted : Literal.charValue zero = .ok (some '\x00') :=
      Literal.charValue_of_singleton decodesZero
    exact ⟨charLiteral_of_none family unclear, charLiteral_of_some family denoted⟩

/-- A character of two units, one that is no longer ASCII, and a literal without characters. -/
theorem charLiteral_denotes_paired :
    Literal.decode "'😀'" = .ok "😀" ∧
      Target.java.charLiteral "'😀'" = .ok "'\\uD83D\\uDE00'" ∧
      readLiteral '\'' "'\\uD83D\\uDE00'" = some [0xD83D, 0xDE00] ∧
      Target.apex.charLiteral "'\x7f'" = .ok "'\\u007F'" ∧
      Literal.charValue "'\\u007F'" = .ok (some '\x7f') ∧
      Target.apex.charLiteral "'\\u007F'" = .ok "'\\u007F'" ∧
      Literal.decode "''" = .ok "" ∧ Target.java.charLiteral "''" = .ok "'\\u0000'" := by
  have decodes : Literal.decode "'😀'" = .ok "😀" := rfl
  have renders : Target.java.charLiteral "'😀'" = .ok "'\\uD83D\\uDE00'" := rfl
  have rendersToo : Target.apex.charLiteral "'\x7f'" = .ok "'\\u007F'" := rfl
  obtain ⟨java, unclear⟩ := charLiteral_denotes (Or.inl rfl : Target.java = .java ∨ _)
  obtain ⟨apex, _⟩ := charLiteral_denotes (Or.inr rfl : _ ∨ Target.apex = .apex)
  obtain ⟨_, _, made, _, _, read, _⟩ := java _ '😀' decodes
  rw [renders] at made
  cases made
  obtain ⟨_, _, made, _, _, _, again⟩ := apex "'\x7f'" '\x7f' rfl
  rw [rendersToo] at made
  cases made
  obtain ⟨value, same⟩ := again (by decide)
  exact ⟨decodes, renders, read, rendersToo, value, same, rfl,
    (unclear "''" "" "'\x00'" rfl (by decide) rfl).1⟩

end Target

end LiteralGrammar
