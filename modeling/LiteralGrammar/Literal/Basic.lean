/-
Literals of grammar notation: text between single quotes with backslash
escapes.

A literal is first cut into glyphs, each a character that stands for itself or
a backslash with the character it takes.  Cutting fails on a backslash that has
nothing to take; apart from the delimiters this is the only way in which a
literal can be malformed, so every reader of literals goes through `glyphs` and
fails on the same ones.  What a list of glyphs denotes is `decode`.
-/

import LiteralGrammar.Fault
import LiteralGrammar.Text.Numeral

namespace LiteralGrammar

/-- One step of reading a literal from left to right. -/
inductive Glyph where
  | plain (character : Char)
  | escaped (character : Char)
  deriving DecidableEq, Repr

namespace Glyph

def spelling : Glyph → List Char
  | plain character => [character]
  | escaped character => ['\\', character]

def scan : List Char → Option (List Glyph)
  | [] => some []
  | [last] => if last = '\\' then none else some [plain last]
  | head :: taken :: rest =>
      if head = '\\' then (scan rest).map (escaped taken :: ·)
      else (scan (taken :: rest)).map (plain head :: ·)

theorem scan_plain {head : Char} (ordinary : head ≠ '\\') (tail : List Char) :
    scan (head :: tail) = (scan tail).map (plain head :: ·) := by
  cases tail with
  | nil => exact if_neg ordinary
  | cons taken rest => exact if_neg ordinary

theorem scan_escaped (taken : Char) (rest : List Char) :
    scan ('\\' :: taken :: rest) = (scan rest).map (escaped taken :: ·) := by
  rw [scan, if_pos rfl]

theorem scan_lone_escape : scan ['\\'] = none := by
  rw [scan, if_pos rfl]

/-- The glyphs of a text are spelled as the text. -/
theorem flatMap_spelling_of_scan {characters : List Char} {glyphs : List Glyph}
    (scanned : scan characters = some glyphs) : glyphs.flatMap spelling = characters := by
  induction characters using scan.induct generalizing glyphs with
  | case1 =>
      cases scanned
      rfl
  | case2 =>
      rw [scan_lone_escape] at scanned
      cases scanned
  | case3 last ordinary =>
      rw [scan, if_neg ordinary] at scanned
      cases scanned
      rfl
  | case4 taken rest ih =>
      rw [scan_escaped] at scanned
      obtain ⟨later, found, same⟩ := Option.map_eq_some_iff.mp scanned
      rw [← same, List.flatMap_cons, ih found]
      rfl
  | case5 head taken rest ordinary ih =>
      rw [scan_plain ordinary] at scanned
      obtain ⟨later, found, same⟩ := Option.map_eq_some_iff.mp scanned
      rw [← same, List.flatMap_cons, ih found]
      rfl

/-- The characters named by a letter after the backslash; any other stands for itself. -/
def meaning (character : Char) : Char :=
  if character = 'n' then '\n'
  else if character = 'r' then '\r'
  else if character = 't' then '\t'
  else if character = 'b' then '\x08'
  else if character = 'f' then '\x0c'
  else character

/-- The character whose code four hexadecimal digits give, if it is a scalar value. -/
def coded? (first second third fourth : Char) : Option Char :=
  match Text.hexWord? first second third fourth with
  | some code => if code.isValidChar then some (Char.ofNat code) else none
  | none => none

def named? : List Glyph → Option Char
  | plain first :: plain second :: plain third :: plain fourth :: _ =>
      coded? first second third fourth
  | _ => none

def decodeAfter : Nat → List Glyph → List Char
  | _, [] => []
  | skipped + 1, _ :: rest => decodeAfter skipped rest
  | 0, plain character :: rest => character :: decodeAfter 0 rest
  | 0, escaped character :: rest =>
      match if character = 'u' then named? rest else none with
      | some named => named :: decodeAfter 4 rest
      | none => meaning character :: decodeAfter 0 rest

/-- The characters that a list of glyphs denotes.  An escaped `u` takes four plain
hexadecimal digits that name a scalar value; without them it is the letter. -/
def decode (glyphs : List Glyph) : List Char :=
  decodeAfter 0 glyphs

theorem decodeAfter_eq (skipped : Nat) (glyphs : List Glyph) :
    decodeAfter skipped glyphs = decode (glyphs.drop skipped) := by
  induction skipped generalizing glyphs with
  | zero => rfl
  | succ skipped ih =>
      cases glyphs with
      | nil => rfl
      | cons first rest => exact ih rest

theorem decode_nil : decode [] = [] := rfl

theorem decode_plain (character : Char) (rest : List Glyph) :
    decode (plain character :: rest) = character :: decode rest := rfl

theorem decode_named {rest : List Glyph} {named : Char} (found : named? rest = some named) :
    decode (escaped 'u' :: rest) = named :: decode (rest.drop 4) := by
  unfold decode
  rw [decodeAfter, if_pos rfl, found]
  exact congrArg (named :: ·) (decodeAfter_eq 4 rest)

theorem decode_unnamed {rest : List Glyph} (missing : named? rest = none) :
    decode (escaped 'u' :: rest) = 'u' :: decode rest := by
  unfold decode
  rw [decodeAfter, if_pos rfl, missing]
  rfl

theorem decode_escaped {character : Char} (other : character ≠ 'u') (rest : List Glyph) :
    decode (escaped character :: rest) = meaning character :: decode rest := by
  unfold decode
  rw [decodeAfter, if_neg other]

/-- Whether every escaped `u` is followed by four digits that name a character. -/
def NamesAll : List Glyph → Prop
  | [] => True
  | glyph :: rest => (glyph = escaped 'u' → (named? rest).isSome = true) ∧ NamesAll rest

end Glyph

namespace Literal

def quote : Char := '\''

def interior? : List Char → Option (List Char)
  | [] => none
  | first :: rest =>
      if first = quote ∧ rest.getLast? = some quote then some rest.dropLast else none

theorem interior?_eq_some_iff (characters body : List Char) :
    interior? characters = some body ↔ characters = quote :: (body ++ [quote]) := by
  cases characters with
  | nil => simp [interior?]
  | cons first rest =>
      constructor
      · intro found
        by_cases delimited : first = quote ∧ rest.getLast? = some quote
        · rw [interior?, if_pos delimited] at found
          obtain ⟨start, same⟩ := List.getLast?_eq_some_iff.mp delimited.2
          have bodyEq := Option.some.inj found
          rw [same, List.dropLast_concat] at bodyEq
          rw [delimited.1, same, bodyEq]
        · rw [interior?, if_neg delimited] at found
          cases found
      · intro same
        have parts := List.cons.inj same
        rw [interior?, if_pos ⟨parts.1, by rw [parts.2]; exact List.getLast?_concat⟩, parts.2,
          List.dropLast_concat]

def enclose (body : List Char) : String :=
  String.ofList (quote :: (body ++ [quote]))

def interior (literal : String) : Except Fault String :=
  match interior? literal.toList with
  | some body => .ok (String.ofList body)
  | none => .error (.missingDelimiters literal)

theorem interior_enclose (body : List Char) :
    interior (enclose body) = .ok (String.ofList body) := by
  have found : interior? (quote :: (body ++ [quote])) = some body :=
    (interior?_eq_some_iff _ _).2 rfl
  unfold interior enclose
  rw [String.toList_ofList, found]

def glyphs (literal : String) : Except Fault (List Glyph) :=
  match interior? literal.toList with
  | none => .error (.missingDelimiters literal)
  | some body =>
      match Glyph.scan body with
      | none => .error (.danglingEscape literal)
      | some found => .ok found

theorem glyphs_enclose (body : List Char) :
    glyphs (enclose body) =
      match Glyph.scan body with
      | none => .error (.danglingEscape (enclose body))
      | some found => .ok found := by
  have found : interior? (enclose body).toList = some body := by
    unfold enclose
    rw [String.toList_ofList]
    exact (interior?_eq_some_iff _ _).2 rfl
  unfold glyphs
  rw [found]

def decode (literal : String) : Except Fault String :=
  (glyphs literal).map (fun found => String.ofList (Glyph.decode found))

/-- The character that a literal denotes, if it denotes exactly one. -/
def charValue (literal : String) : Except Fault (Option Char) :=
  (decode literal).map (fun text =>
    match text.toList with
    | [character] => some character
    | _ => none)

/-- Whether a name is written as a literal, to go by its first character. -/
def opensAsLiteral (name : String) : Bool :=
  name.toList.head? = some quote

end Literal

end LiteralGrammar
