/-
What a Pascal compiler makes of the literals that are written for it.

A quote in a run is written twice and read once.  After a code comes the end, a
run or another code, never a digit, so the code is read as a whole.  Both ways
of writing a text are followed character by character, one with the reader in a
run or before one, the other always in a run.
-/

import LiteralGrammar.Proofs.Fault
import LiteralGrammar.Proofs.Text.Digits
import LiteralGrammar.Target.PascalReader
import LiteralGrammar.Target.Rendering

namespace LiteralGrammar

namespace Pascal

/-! ### Characters of a run -/

theorem readFrom_runChar (character : Char) (rest : List Char) :
    readFrom .run (runChar character ++ rest) = (readFrom .run rest).map (character :: ·) := by
  unfold runChar
  by_cases isQuote : character = quote
  · rw [if_pos isQuote, isQuote]
    change readFrom .run ('\'' :: '\'' :: rest) = _
    rw [readFrom, if_pos rfl, readFrom, if_pos rfl]
    rfl
  · have other : character ≠ '\'' := isQuote
    rw [if_neg isQuote]
    change readFrom .run (character :: rest) = _
    rw [readFrom, if_neg other]

/-! ### Characters by their codes -/

theorem digitValue?_digitChar {digit : Nat} (small : digit < 10) :
    digitValue? digit.digitChar = some digit := by
  have all : ∀ digit : Fin 10, digitValue? digit.val.digitChar = some digit.val := by decide
  exact all ⟨digit, small⟩

/-- The digits of a code are taken one after the other, the last of them at the end. -/
theorem readFrom_digits (code : Nat) (rest : List Char) :
    readFrom .sign (Nat.toDigits 10 code ++ rest) = readFrom (.code code) rest := by
  induction code using Text.toDigits_induction (by decide : 1 < 10) generalizing rest with
  | single digit small =>
      rw [List.singleton_append, readFrom, digitValue?_digitChar small]
  | concat value digits digit ih small =>
      rw [List.append_assoc, ih, List.singleton_append, readFrom, digitValue?_digitChar small]

theorem numbered?_toNat (character : Char) : numbered? character.toNat = some character :=
  (if_pos character.valid).trans (congrArg some (Char.ofNat_toNat character))

/-- Whether a text does not go on with a digit. -/
def NoDigit (text : List Char) : Prop :=
  ∀ character rest, text = character :: rest → digitValue? character = none

theorem noDigit_nil : NoDigit [] := by
  intro character rest impossible
  cases impossible

theorem noDigit_quote (rest : List Char) : NoDigit (quote :: rest) := by
  intro character later same
  rw [← (List.cons.inj same).1]
  decide

theorem noDigit_codeItem (code : Nat) (rest : List Char) : NoDigit (codeItem code ++ rest) := by
  intro character later same
  rw [← (List.cons.inj same).1]
  decide

theorem readFrom_code_of_noDigit {text : List Char} (ends : NoDigit text) (character : Char) :
    readFrom (.code character.toNat) text = (readFrom .start text).map (character :: ·) := by
  cases text with
  | nil =>
      rw [readFrom, readFrom, numbered?_toNat]
      rfl
  | cons head rest =>
      rw [readFrom, readFrom, ends head rest rfl, numbered?_toNat]
      by_cases isQuote : head = '\''
      · simp only [if_pos isQuote]
      · by_cases isSign : head = '#'
        · simp only [if_neg isQuote, if_pos isSign]
        · simp only [if_neg isQuote, if_neg isSign, Option.map_none]

theorem readFrom_codeItem {text : List Char} (ends : NoDigit text) (character : Char) :
    readFrom .start (codeItem character.toNat ++ text) =
      (readFrom .start text).map (character :: ·) := by
  rw [← readFrom_code_of_noDigit ends, ← readFrom_digits]
  rfl

theorem readFrom_quote_codeItem {text : List Char} (ends : NoDigit text) (character : Char) :
    readFrom .run (quote :: (codeItem character.toNat ++ text)) =
      (readFrom .start text).map (character :: ·) := by
  rw [← readFrom_code_of_noDigit ends, ← readFrom_digits]
  rfl

/-! ### Complete literals -/

theorem continueLiteral_control {character : Char} (control : isControl character = true)
    (inRun : Bool) (rest : List Char) :
    continueLiteral inRun (character :: rest) =
      (if inRun then [quote] else []) ++
        (codeItem character.toNat ++ continueLiteral false rest) := by
  cases inRun <;> rw [continueLiteral, if_pos control] <;> rfl

theorem continueLiteral_shown {character : Char} (shown : isControl character = false)
    (inRun : Bool) (rest : List Char) :
    continueLiteral inRun (character :: rest) =
      (if inRun then [] else [quote]) ++ (runChar character ++ continueLiteral true rest) := by
  cases inRun <;> rw [continueLiteral, shown] <;> rfl

theorem noDigit_continueLiteral (text : List Char) : NoDigit (continueLiteral false text) := by
  cases text with
  | nil => exact noDigit_nil
  | cons character rest =>
      cases control : isControl character with
      | true =>
          rw [continueLiteral_control control]
          exact noDigit_codeItem _ _
      | false =>
          rw [continueLiteral_shown control]
          exact noDigit_quote _

theorem readFrom_continueLiteral (text : List Char) :
    readFrom .run (continueLiteral true text) = some text ∧
      readFrom .start (continueLiteral false text) = some text := by
  induction text with
  | nil => exact ⟨rfl, rfl⟩
  | cons character rest ih =>
      cases control : isControl character with
      | true =>
          have ends := noDigit_continueLiteral rest
          rw [continueLiteral_control control, continueLiteral_control control]
          constructor
          · refine (readFrom_quote_codeItem ends character).trans ?_
            rw [ih.2]
            rfl
          · refine (readFrom_codeItem ends character).trans ?_
            rw [ih.2]
            rfl
      | false =>
          have run := readFrom_runChar character (continueLiteral true rest)
          rw [ih.1] at run
          rw [continueLiteral_shown control, continueLiteral_shown control]
          exact ⟨run, run⟩

theorem readFrom_literalBody (text : List Char) :
    readFrom .start (literalBody text) = some text := by
  unfold literalBody
  cases text with
  | nil => rfl
  | cons character rest => exact (readFrom_continueLiteral (character :: rest)).2

/-! ### Texts between quotes of the caller -/

theorem innerBody_control {character : Char} (control : isControl character = true)
    (rest : List Char) :
    innerBody (character :: rest) =
      quote :: (codeItem character.toNat ++ quote :: innerBody rest) := by
  unfold innerBody
  rw [List.flatMap_cons, if_pos control, List.cons_append, List.append_assoc]
  rfl

theorem innerBody_shown {character : Char} (shown : isControl character = false)
    (rest : List Char) :
    innerBody (character :: rest) = runChar character ++ innerBody rest := by
  unfold innerBody
  rw [List.flatMap_cons, shown]
  rfl

theorem readFrom_innerBody (text : List Char) :
    readFrom .run (innerBody text ++ [quote]) = some text := by
  induction text with
  | nil => rfl
  | cons character rest ih =>
      cases control : isControl character with
      | true =>
          rw [innerBody_control control, List.cons_append, List.append_assoc, List.cons_append,
            readFrom_quote_codeItem (noDigit_quote _)]
          -- The quote after the code opens the run that goes on with `rest`.
          change (readFrom .run (innerBody rest ++ [quote])).map (character :: ·) = _
          rw [ih]
          rfl
      | false =>
          rw [innerBody_shown control, List.append_assoc, readFrom_runChar, ih]
          rfl

theorem readLiteral_ofText_true (text : String) :
    readLiteral (ofText true text) = some text := by
  unfold readLiteral ofText
  rw [String.toList_ofList, if_pos rfl, readFrom_literalBody]
  exact congrArg some String.ofList_toList

theorem readLiteral_ofText_false (text : String) :
    readLiteral ("'" ++ ofText false text ++ "'") = some text := by
  have characters : ("'" ++ ofText false text ++ "'").toList =
      quote :: (innerBody text.toList ++ [quote]) := by
    have inner : (ofText false text).toList = innerBody text.toList := String.toList_ofList
    rw [String.toList_append, String.toList_append, inner]
    rfl
  unfold readLiteral
  rw [characters]
  change (readFrom .run _).map _ = _
  rw [readFrom_innerBody]
  exact congrArg some String.ofList_toList

end Pascal

namespace Target

/-- Every text is read back from the literal that is written for it, from the one that is put
between the caller's quotes, and every literal of the grammar is read as what it denotes. -/
theorem readLiteral_delphi :
    (∀ text, Pascal.readLiteral (Target.delphi.rawLiteral true text) = some text) ∧
    (∀ text, Pascal.readLiteral ("'" ++ Target.delphi.rawLiteral false text ++ "'") =
      some text) ∧
    ∀ literal text, Literal.decode literal = .ok text →
      ∃ rendered, Target.delphi.grammarLiteral literal = .ok rendered ∧
        Pascal.readLiteral rendered = some text := by
  refine ⟨Pascal.readLiteral_ofText_true, Pascal.readLiteral_ofText_false, ?_⟩
  intro literal text decodes
  refine ⟨Pascal.ofText true text, ?_, Pascal.readLiteral_ofText_true text⟩
  exact map_eq_ok_iff.mpr ⟨text, decodes, rfl⟩

/-- Quotes and control characters side by side, at both ends. -/
theorem readLiteral_delphi_crowded :
    Target.delphi.rawLiteral true "\n''\t7'" = "#10''''''#9'7'''" ∧
      Target.delphi.rawLiteral false "\n''\t7'" = "'#10''''''#9'7''" ∧
      Pascal.readLiteral "#10''''''#9'7'''" = some "\n''\t7'" ∧
      Pascal.readLiteral "''#10''''''#9'7'''" = some "\n''\t7'" ∧
      Literal.decode "'\\n\\''" = .ok "\n'" ∧
      Target.delphi.grammarLiteral "'\\n\\''" = .ok "#10''''" ∧
      Pascal.readLiteral "#10''''" = some "\n'" := by
  have quoted : Target.delphi.rawLiteral true "\n''\t7'" = "#10''''''#9'7'''" := by decide
  have inner : Target.delphi.rawLiteral false "\n''\t7'" = "'#10''''''#9'7''" := by decide
  have decodes : Literal.decode "'\\n\\''" = .ok "\n'" := rfl
  have renders : Target.delphi.grammarLiteral "'\\n\\''" = .ok "#10''''" := by rfl
  obtain ⟨readQuoted, readInner, readGrammar⟩ := readLiteral_delphi
  have first := readQuoted "\n''\t7'"
  have second := readInner "\n''\t7'"
  obtain ⟨rendered, made, third⟩ := readGrammar _ _ decodes
  rw [quoted] at first
  rw [inner] at second
  rw [renders] at made
  cases made
  exact ⟨quoted, inner, first, second, decodes, renders, third⟩

end Target

end LiteralGrammar
