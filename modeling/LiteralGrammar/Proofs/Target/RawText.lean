/-
Raw text in literals of the C family.

Each character of a text becomes one glyph that denotes it, an escape where the
table has a name for it and the character itself elsewhere.  None of them is an
escaped `u`, so no two glyphs are read together, however much the text may look
like escapes itself.  The literals for Apex need no escape that is dropped when
a literal of the grammar is rewritten, so they are left as they are.
-/

import LiteralGrammar.Proofs.Target.CFamilyReading
import LiteralGrammar.Proofs.Target.Notation

namespace LiteralGrammar

namespace EscapeTable

theorem lookup_empty (character : Char) : empty.lookup character = none := by
  unfold lookup empty
  split <;> rfl

theorem lookup_set (table : EscapeTable) (character : Char) (code : Fin 256)
    (place : character.toNat = code.val) (escape : String) (other : Char) :
    (table.set code escape).lookup other =
      if other = character then some escape else table.lookup other := by
  apply lookup_of_insert
  unfold insert
  rw [dif_pos (place ▸ code.isLt)]
  congr

end EscapeTable

namespace CFamily

open Glyph Text

/-! ### Characters that have a name -/

/-- What names a character after a backslash, if the family has a name for it. -/
def nameOf? (character : Char) : Option Char :=
  if character = '"' then some '"'
  else if character = '\'' then some '\''
  else if character = '\\' then some '\\'
  else if character = '\x0c' then some 'f'
  else if character = '\x08' then some 'b'
  else if character = '\t' then some 't'
  else if character = '\r' then some 'r'
  else if character = '\n' then some 'n'
  else none

theorem lookup_cFamily (character : Char) :
    EscapeTable.cFamily.lookup character =
      (nameOf? character).map (fun name => String.ofList ['\\', name]) := by
  unfold EscapeTable.cFamily nameOf?
  rw [EscapeTable.lookup_set _ '"' 34 rfl, EscapeTable.lookup_set _ '\'' 39 rfl,
    EscapeTable.lookup_set _ '\\' 92 rfl, EscapeTable.lookup_set _ '\x0c' 12 rfl,
    EscapeTable.lookup_set _ '\x08' 8 rfl, EscapeTable.lookup_set _ '\t' 9 rfl,
    EscapeTable.lookup_set _ '\r' 13 rfl, EscapeTable.lookup_set _ '\n' 10 rfl,
    EscapeTable.lookup_empty]
  simp only [apply_ite (Option.map _), Option.map_some, Option.map_none]

/-- A name is read back as the character that it names, and so are the literals of a grammar. -/
theorem reads_of_nameOf? {character name : Char} (named : nameOf? character = some name) :
    escapeValue? name = some character ∧ meaning name = character ∧ name ≠ 'u' ∧
      name ≠ '\n' ∧ name ≠ '\r' := by
  unfold nameOf? at named
  repeat' split at named
  all_goals cases named
  all_goals
    subst character
    decide

/-- Every name but that of the double quote survives in a literal of the grammar. -/
theorem passesThrough_of_nameOf? {character name : Char} (named : nameOf? character = some name)
    (other : character ≠ '"') : passesThrough '\'' name = true := by
  unfold nameOf? at named
  rw [if_neg other] at named
  repeat' split at named
  all_goals cases named
  all_goals decide

theorem ne_of_nameOf?_eq_none {character : Char} (nameless : nameOf? character = none) :
    character ≠ '\\' ∧ character ≠ '\'' ∧ character ≠ '"' ∧ character ≠ '\n' ∧
      character ≠ '\r' := by
  refine ⟨?_, ?_, ?_, ?_, ?_⟩
  all_goals
    intro same
    rw [same] at nameless
    cases nameless

/-! ### One character of raw text -/

/-- The glyph for a character of raw text; `verbatim` characters are not given names. -/
def rawGlyph (verbatim : Char → Bool) (character : Char) : Glyph :=
  if verbatim character then plain character
  else
    match nameOf? character with
    | some name => escaped name
    | none => plain character

theorem spelling_rawGlyph (verbatim : Char → Bool) (character : Char) :
    (rawGlyph verbatim character).spelling =
      escapeChar EscapeTable.cFamily verbatim character := by
  unfold rawGlyph escapeChar
  rw [lookup_cFamily]
  split
  · rfl
  · cases nameOf? character with
    | none => rfl
    | some name => exact String.toList_ofList.symm

theorem escapeText_eq (verbatim : Char → Bool) (text : List Char) :
    escapeText EscapeTable.cFamily verbatim text =
      (text.map (rawGlyph verbatim)).flatMap spelling := by
  unfold escapeText
  rw [List.flatMap_map, funext (spelling_rawGlyph verbatim)]

/-- Characters that need no name in a literal that ends at `quote`. -/
def Harmless (quote character : Char) : Prop :=
  character ≠ '\\' ∧ character ≠ quote ∧ character ≠ '\n' ∧ character ≠ '\r'

/-- A character is written as itself where this is harmless, and else by its name. -/
theorem rawGlyph_cases {quote : Char} (mark : IsMark quote) {verbatim : Char → Bool}
    (harmless : ∀ character, verbatim character = true → Harmless quote character)
    (character : Char) :
    (rawGlyph verbatim character = plain character ∧ Harmless quote character) ∨
      ∃ name, rawGlyph verbatim character = escaped name ∧ nameOf? character = some name ∧
        verbatim character = false := by
  unfold rawGlyph
  split
  · rename_i kept
    exact Or.inl ⟨rfl, harmless character kept⟩
  · rename_i looked
    cases named : nameOf? character with
    | some name => exact Or.inr ⟨name, rfl, rfl, Bool.not_eq_true _ ▸ looked⟩
    | none =>
        obtain ⟨ordinary, single, double, line, back⟩ := ne_of_nameOf?_eq_none named
        refine Or.inl ⟨rfl, ordinary, ?_, line, back⟩
        rcases mark with same | same <;> rw [same] <;> assumption

/-- A glyph that denotes a character by itself in a literal of one line that ends at `quote`. -/
structure StandsFor (quote character : Char) (glyph : Glyph) : Prop where
  proper : Proper glyph
  readable : Readable quote glyph
  alone : glyph ≠ escaped 'u'
  value : glyph.value = character
  oneLine : ∀ written ∈ glyph.spelling, written ≠ '\n' ∧ written ≠ '\r'

theorem standsFor_rawGlyph {quote : Char} (mark : IsMark quote) {verbatim : Char → Bool}
    (harmless : ∀ character, verbatim character = true → Harmless quote character)
    (character : Char) : StandsFor quote character (rawGlyph verbatim character) := by
  rcases rawGlyph_cases mark harmless character with
    ⟨itself, ordinary, different, line, back⟩ | ⟨name, escape, named, _⟩
  · rw [itself]
    exact ⟨ordinary, ⟨ordinary, different⟩, Glyph.noConfusion, rfl,
      List.forall_mem_singleton.mpr ⟨line, back⟩⟩
  · obtain ⟨read, meant, other, line, back⟩ := reads_of_nameOf? named
    rw [escape]
    refine ⟨trivial, fun _ => read.trans (congrArg some meant.symm), ?_, meant, ?_⟩
    · exact fun same => other (escaped.inj same)
    · exact List.forall_mem_cons.mpr ⟨by decide, List.forall_mem_singleton.mpr ⟨line, back⟩⟩

/-! ### Texts -/

section Text

variable {quote : Char} {glyphOf : Char → Glyph}
  (stands : ∀ character, StandsFor quote character (glyphOf character))

include stands

theorem readBody_of_standsFor (text : List Char) :
    readBody quote .between ((text.map glyphOf).flatMap spelling) = some (utf16 text) := by
  induction text with
  | nil => rfl
  | cons character rest ih =>
      have here := stands character
      rw [List.map_cons, List.flatMap_cons, readBody_single here.readable here.alone, ih,
        here.value, utf16_cons]
      rfl

theorem decode_of_standsFor (text : List Char) : decode (text.map glyphOf) = text := by
  induction text with
  | nil => rfl
  | cons character rest ih =>
      rw [List.map_cons, decode_single (stands character).alone, (stands character).value, ih]

theorem proper_of_standsFor (text : List Char) :
    ∀ glyph ∈ text.map glyphOf, Proper glyph := by
  intro glyph member
  obtain ⟨character, _, same⟩ := List.mem_map.mp member
  rw [← same]
  exact (stands character).proper

theorem oneLine_of_standsFor (text : List Char) :
    ∀ written ∈ (text.map glyphOf).flatMap spelling, written ≠ '\n' ∧ written ≠ '\r' := by
  intro written member
  obtain ⟨glyph, inside, spelled⟩ := List.mem_flatMap.mp member
  obtain ⟨character, _, same⟩ := List.mem_map.mp inside
  rw [← same] at spelled
  exact (stands character).oneLine written spelled

end Text

/-- A literal on one line that a compiler reads as a text, and as no other text. -/
structure Conveys (quote : Char) (literal text : String) : Prop where
  read (other : String) :
    readLiteral quote literal = some (utf16 other.toList) ↔ other = text
  oneLine : ∀ written ∈ literal.toList, written ≠ '\n' ∧ written ≠ '\r'

theorem conveys_of_standsFor {quote : Char} (mark : IsMark quote) {glyphOf : Char → Glyph}
    (stands : ∀ character, StandsFor quote character (glyphOf character)) (text : String) :
    Conveys quote
      (String.ofList (quote :: ((text.toList.map glyphOf).flatMap spelling ++ [quote]))) text := by
  constructor
  · intro other
    unfold readLiteral
    rw [String.toList_ofList, strip?_quoted, Option.bind_some,
      readBody_of_standsFor stands, Option.some.injEq]
    constructor
    · intro same
      exact String.toList_inj.mp (utf16_injective same).symm
    · intro same
      rw [same]
  · rw [String.toList_ofList, List.forall_mem_cons, List.forall_mem_append,
      List.forall_mem_singleton]
    have ends : quote ≠ '\n' ∧ quote ≠ '\r' := by
      rcases mark with same | same <;> rw [same] <;> decide
    exact ⟨ends, oneLine_of_standsFor stands _, ends⟩

end CFamily

namespace Target

open CFamily

theorem harmless_of_keepsVerbatim {target : Target} (character : Char)
    (verbatim : target.keepsVerbatim character = true) : Harmless target.quote character := by
  cases target with
  | apex =>
      rw [of_decide_eq_true verbatim]
      unfold Harmless
      decide
  | java => cases verbatim
  | delphi => cases verbatim

theorem standsFor_rawGlyph_keepsVerbatim (target : Target) (character : Char) :
    StandsFor target.quote character (rawGlyph target.keepsVerbatim character) :=
  standsFor_rawGlyph target.isMark_quote harmless_of_keepsVerbatim character

theorem rawLiteral_of_family {target : Target} (family : target = .java ∨ target = .apex)
    (text : String) :
    target.rawLiteral true text = String.ofList (target.quote ::
      ((text.toList.map (rawGlyph target.keepsVerbatim)).flatMap Glyph.spelling ++
        [target.quote])) := by
  rw [← escapeText_eq]
  rcases family with same | same <;> rw [same] <;> rfl

theorem conveys_rawLiteral {target : Target} (family : target = .java ∨ target = .apex)
    (text : String) : Conveys target.quote (target.rawLiteral true text) text := by
  rw [rawLiteral_of_family family]
  exact conveys_of_standsFor target.isMark_quote target.standsFor_rawGlyph_keepsVerbatim text

/-- The double quote is the only character whose escape would be dropped, and Apex has none. -/
theorem kept_rawGlyph_apex (character : Char) :
    kept Target.apex.quote (rawGlyph Target.apex.keepsVerbatim character) =
      rawGlyph Target.apex.keepsVerbatim character := by
  rcases rawGlyph_cases (isMark_quote .apex) harmless_of_keepsVerbatim character with
    ⟨itself, _, different, _⟩ | ⟨name, escape, named, looked⟩
  · rw [itself]
    exact kept_plain different
  · rw [escape]
    exact if_pos (passesThrough_of_nameOf? named (of_decide_eq_false looked))

theorem glyphs_rawLiteral_apex (text : String) :
    Literal.glyphs (Target.apex.rawLiteral true text) =
      .ok (text.toList.map (rawGlyph Target.apex.keepsVerbatim)) := by
  rw [rawLiteral_of_family (Or.inr rfl)]
  exact Literal.glyphs_enclose_spelling
    (proper_of_standsFor (standsFor_rawGlyph_keepsVerbatim .apex) text.toList)

/-- Raw text comes back from its literal: a compiler of Java or Apex reads exactly this text, and
the literal for Apex denotes it in a grammar too and is not changed by rewriting. -/
theorem rawLiteral_roundTrip (text : String) :
    Conveys Target.java.quote (Target.java.rawLiteral true text) text ∧
      Conveys Target.apex.quote (Target.apex.rawLiteral true text) text ∧
      Literal.decode (Target.apex.rawLiteral true text) = .ok text ∧
      Target.apex.grammarLiteral (Target.apex.rawLiteral true text) =
        .ok (Target.apex.rawLiteral true text) := by
  have cut := glyphs_rawLiteral_apex text
  refine ⟨conveys_rawLiteral (Or.inl rfl) text, conveys_rawLiteral (Or.inr rfl) text, ?_, ?_⟩
  · apply Literal.decode_eq_ok_iff.mpr
    refine ⟨_, cut, ?_⟩
    rw [decode_of_standsFor (standsFor_rawGlyph_keepsVerbatim .apex), String.ofList_toList]
  · rw [grammarLiteral_of_family (Or.inr rfl), ofLiteral_eq cut, List.map_map,
      rawLiteral_of_family (Or.inr rfl)]
    have unchanged : kept Target.apex.quote ∘ rawGlyph Target.apex.keepsVerbatim =
        rawGlyph Target.apex.keepsVerbatim :=
      funext kept_rawGlyph_apex
    rw [unchanged]

/-- A text that looks like an escape, with both quotes behind it. -/
example : Target.java.rawLiteral true "\\u0041\"'" = "\"\\\\u0041\\\"\\'\"" ∧
    Target.apex.rawLiteral true "\\u0041\"'" = "'\\\\u0041\"\\''" :=
  ⟨rfl, rfl⟩

end Target

end LiteralGrammar
