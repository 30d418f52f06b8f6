/-
Decoding and rewriting, each as one pass over the characters of a literal.

Neither pass cuts glyphs.  Decoding looks ahead after an escaped `u`, in the bytes
that the text takes in UTF-8, and passes over the digits that it has found there;
rewriting takes them as they come.  Both stop at a backslash with nothing behind
it, and each finds it by itself.
-/

import LiteralGrammar.Target.CFamily

namespace LiteralGrammar

namespace Literal

/-- The characters of the first bytes of a text in UTF-8, if a character ends there. -/
def leading? : Nat → List Char → Option (List Char)
  | 0, _ => some []
  | _ + 1, [] => none
  | bytes + 1, character :: rest =>
      if character.utf8Size ≤ bytes + 1 then
        (leading? (bytes + 1 - character.utf8Size) rest).map (character :: ·)
      else none

/-- The number that digits write behind those that have been read. -/
def hexNumber? (read : Nat) : List Char → Option Nat
  | [] => some read
  | digit :: rest =>
      match Text.hexValue? digit with
      | some value => hexNumber? (read * 16 + value) rest
      | none => none

/-- The character that the next four bytes name by its code. -/
def codeAhead? (text : List Char) : Option Char :=
  match (leading? 4 text).bind (hexNumber? 0) with
  | some code => if code.isValidChar then some (Char.ofNat code) else none
  | none => none

/-- Decodes what is left of the inside of `literal`. -/
def decodeFrom (literal : String) : List Char → Except Fault (List Char)
  | [] => .ok []
  | head :: rest =>
      if head = '\\' then
        match rest with
        | [] => .error (.danglingEscape literal)
        | taken :: later =>
            match if taken = 'u' then codeAhead? later else none with
            | some named => (decodeFrom literal (later.drop 4)).map (named :: ·)
            | none => (decodeFrom literal later).map (Glyph.meaning taken :: ·)
      else (decodeFrom literal rest).map (head :: ·)
termination_by characters => characters.length

theorem decodeFrom_nil (literal : String) : decodeFrom literal [] = .ok [] := by
  rw [decodeFrom]

theorem decodeFrom_lone_escape (literal : String) :
    decodeFrom literal ['\\'] = .error (.danglingEscape literal) := by
  rw [decodeFrom.eq_def]
  rfl

theorem decodeFrom_escaped (literal : String) (taken : Char) (later : List Char) :
    decodeFrom literal ('\\' :: taken :: later) =
      match if taken = 'u' then codeAhead? later else none with
      | some named => (decodeFrom literal (later.drop 4)).map (named :: ·)
      | none => (decodeFrom literal later).map (Glyph.meaning taken :: ·) := by
  rw [decodeFrom.eq_def]
  rfl

theorem decodeFrom_plain (literal : String) {head : Char} (ordinary : head ≠ '\\')
    (rest : List Char) :
    decodeFrom literal (head :: rest) = (decodeFrom literal rest).map (head :: ·) := by
  rw [decodeFrom.eq_def]
  exact if_neg ordinary

def decodePass (literal : String) : Except Fault String := do
  let body ← interior literal
  let text ← decodeFrom literal body.toList
  return String.ofList text

end Literal

namespace CFamily

/-- Rewrites what is left of the inside of `literal`. -/
def rewriteFrom (quote passQuote : Char) (literal : String) :
    List Char → Except Fault (List Char)
  | [] => .ok []
  | head :: rest =>
      if head = '\\' then
        match rest with
        | [] => .error (.danglingEscape literal)
        | taken :: later =>
            (rewriteFrom quote passQuote literal later).map
              ((if passesThrough passQuote taken then ['\\', taken] else [taken]) ++ ·)
      else
        (rewriteFrom quote passQuote literal rest).map
          ((if head = quote then ['\\', head] else [head]) ++ ·)
termination_by characters => characters.length

section Steps

variable (quote passQuote : Char) (literal : String)

theorem rewriteFrom_nil : rewriteFrom quote passQuote literal [] = .ok [] := by
  rw [rewriteFrom]

theorem rewriteFrom_lone_escape :
    rewriteFrom quote passQuote literal ['\\'] = .error (.danglingEscape literal) := by
  rw [rewriteFrom.eq_def]
  rfl

theorem rewriteFrom_escaped (taken : Char) (later : List Char) :
    rewriteFrom quote passQuote literal ('\\' :: taken :: later) =
      (rewriteFrom quote passQuote literal later).map
        (renderGlyph quote passQuote (.escaped taken) ++ ·) := by
  rw [rewriteFrom.eq_def]
  rfl

theorem rewriteFrom_plain {head : Char} (ordinary : head ≠ '\\') (rest : List Char) :
    rewriteFrom quote passQuote literal (head :: rest) =
      (rewriteFrom quote passQuote literal rest).map
        (renderGlyph quote passQuote (.plain head) ++ ·) := by
  rw [rewriteFrom.eq_def]
  exact if_neg ordinary

end Steps

def rewritePass (quote passQuote : Char) (literal : String) : Except Fault String := do
  let body ← Literal.interior literal
  let text ← rewriteFrom quote passQuote literal body.toList
  return String.ofList (quote :: (text ++ [quote]))

end CFamily

end LiteralGrammar
