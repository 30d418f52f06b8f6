/-
The lines of a report.

What was found is shown with its line breaks made visible, but the literal that
a mismatch names is written as it stands in the grammar.  A report therefore has
one line for each diagnostic, and a further one for every line break inside a
literal that is named.
-/

import LiteralGrammar.Proofs.Recognition.Mismatch

namespace LiteralGrammar

/-- A report in which each diagnostic has a line: it ends with a line break if it is not empty, and
its lines are the texts in order. -/
structure OneLineEach (diagnostics : List Diagnostic) (report : String) : Prop where
  breaks : report.toList.count '\n' = diagnostics.length
  ends : report ≠ "" → report.toList.getLast? = some '\n'
  lines : report.toList.splitOn '\n' =
    diagnostics.map (fun diagnostic => diagnostic.text.toList) ++ [[]]

/-! ### What is shown of the input -/

theorem visibleChar_unbroken (character : Char) : '\n' ∉ visibleChar character := by
  unfold visibleChar
  split
  · decide
  · rename_i different
    split
    · decide
    · split
      · decide
      · rw [List.mem_singleton]
        exact fun same => different same.symm

theorem visibleText_unbroken (text : List Char) : '\n' ∉ (visibleText text).toList := by
  unfold visibleText
  rw [String.toList_ofList, List.mem_cons, List.mem_append, List.mem_flatMap]
  rintro (quote | ⟨character, _, inside⟩ | quote)
  · revert quote
    decide
  · exact visibleChar_unbroken character inside
  · revert quote
    decide

theorem Token.shown_unbroken (token : Token) : '\n' ∉ token.shown.toList := by
  unfold shown
  split
  · decide
  · exact visibleText_unbroken _

theorem unbroken_repr (number : Nat) : '\n' ∉ (Nat.repr number).toList := by
  rw [Nat.toList_repr]
  intro inside
  have digit := Nat.isDigit_of_mem_toDigits (by decide) (by decide) inside
  revert digit
  decide

/-! ### Line breaks of a report -/

namespace Diagnostic

/-- The literal that a mismatch names, as it stands in the grammar. -/
def named (diagnostic : Diagnostic) : List Char :=
  match diagnostic.problem with
  | .mismatch expecting => expecting.toList
  | _ => []

theorem exists_of_mem_named {diagnostic : Diagnostic} {character : Char}
    (member : character ∈ diagnostic.named) :
    ∃ expecting, diagnostic.problem = .mismatch expecting ∧ character ∈ expecting.toList := by
  unfold named at member
  split at member
  · rename_i expecting mismatched
    exact ⟨expecting, mismatched, member⟩
  · cases member

theorem count_description {diagnostic : Diagnostic} (shown : '\n' ∉ diagnostic.found.toList) :
    diagnostic.description.toList.count '\n' = diagnostic.named.count '\n' := by
  have found := List.count_eq_zero.mpr shown
  unfold description named
  cases diagnostic.problem with
  | noViableAlternative => simp [found]
  | mismatch expecting => simp [found]
  | noViableCharacter => simp [found]

theorem count_text {diagnostic : Diagnostic} (shown : '\n' ∉ diagnostic.found.toList) :
    diagnostic.text.toList.count '\n' = diagnostic.named.count '\n' := by
  have line := List.count_eq_zero.mpr (unbroken_repr diagnostic.position.line.toNat)
  have column := List.count_eq_zero.mpr (unbroken_repr diagnostic.position.column.toNat)
  have words : "line ".toList.count '\n' = 0 ∧ ":".toList.count '\n' = 0 ∧
      " ".toList.count '\n' = 0 := by decide
  unfold text
  simp only [String.toList_append, List.count_append, line, column, count_description shown]
  omega

theorem text_unbroken {diagnostic : Diagnostic} (shown : '\n' ∉ diagnostic.found.toList)
    (whole : '\n' ∉ diagnostic.named) : '\n' ∉ diagnostic.text.toList := by
  rw [← List.count_eq_zero, count_text shown, List.count_eq_zero]
  exact whole

theorem count_report {diagnostics : List Diagnostic}
    (shown : ∀ diagnostic ∈ diagnostics, '\n' ∉ diagnostic.found.toList) :
    (report diagnostics).toList.count '\n' =
      diagnostics.length + (diagnostics.flatMap named).count '\n' := by
  unfold report
  rw [String.toList_ofList]
  induction diagnostics with
  | nil => rfl
  | cons diagnostic rest ih =>
      obtain ⟨here, later⟩ := List.forall_mem_cons.mp shown
      rw [List.flatMap_cons, List.count_append, List.count_append, count_text here, ih later,
        List.count_singleton_self, List.length_cons, List.flatMap_cons, List.count_append]
      omega

theorem splitOn_report {diagnostics : List Diagnostic}
    (unbroken : ∀ diagnostic ∈ diagnostics, '\n' ∉ diagnostic.text.toList) :
    (report diagnostics).toList.splitOn '\n' =
      diagnostics.map (fun diagnostic => diagnostic.text.toList) ++ [[]] := by
  unfold report
  rw [String.toList_ofList, List.splitOn_eq_splitOnP]
  induction diagnostics with
  | nil => rfl
  | cons diagnostic rest ih =>
      obtain ⟨here, later⟩ := List.forall_mem_cons.mp unbroken
      have single : diagnostic.text.toList.splitOnP (fun character => character == '\n') =
          [diagnostic.text.toList] := by
        apply List.splitOnP_eq_singleton
        intro character inside
        exact beq_false_of_ne (fun same => here (same ▸ inside))
      rw [List.flatMap_cons, List.append_assoc, List.singleton_append,
        List.splitOnP_append_cons _ _ (by exact beq_self_eq_true '\n'), single, ih later]
      rfl

theorem getLast?_report (diagnostics : List Diagnostic) (solid : report diagnostics ≠ "") :
    (report diagnostics).toList.getLast? = some '\n' := by
  rcases List.eq_nil_or_concat diagnostics with empty | ⟨earlier, last, split⟩
  · rw [empty] at solid
    exact absurd rfl solid
  · unfold report
    rw [String.toList_ofList, split, List.concat_eq_append, List.flatMap_append,
      List.flatMap_singleton, ← List.append_assoc, List.getLast?_concat]

/-- A report has a line for each diagnostic exactly when no literal that is named is broken. -/
theorem oneLineEach_report_iff {diagnostics : List Diagnostic}
    (shown : ∀ diagnostic ∈ diagnostics, '\n' ∉ diagnostic.found.toList) :
    OneLineEach diagnostics (report diagnostics) ↔
      ∀ diagnostic ∈ diagnostics, '\n' ∉ diagnostic.named := by
  constructor
  · intro each diagnostic member inside
    have total := each.breaks
    rw [count_report shown] at total
    have broken : 0 < (diagnostics.flatMap named).count '\n' :=
      List.count_pos_iff.mpr (List.mem_flatMap.mpr ⟨diagnostic, member, inside⟩)
    omega
  · intro whole
    have none : (diagnostics.flatMap named).count '\n' = 0 := by
      rw [List.count_eq_zero, List.mem_flatMap]
      intro ⟨diagnostic, member, inside⟩
      exact whole diagnostic member inside
    exact {
      breaks := by rw [count_report shown, none, Nat.add_zero]
      ends := getLast?_report diagnostics
      lines := splitOn_report (fun diagnostic member =>
        text_unbroken (shown diagnostic member) (whole diagnostic member)) }

end Diagnostic

/-! ### Reports of a recognizer -/

/-- Whatever is reported for an input, what was found in it is shown on one line. -/
theorem found_unbroken_of_parse {recognizer : Recognizer} {name input : String}
    {outcome : Outcome} (parsed : recognizer.parse name input = .ok outcome) :
    ∀ diagnostic ∈ outcome.diagnostics, '\n' ∉ diagnostic.found.toList := by
  intro diagnostic reported
  rcases reported_cases parsed reported with ⟨character, _, same⟩ | ⟨token, same⟩ |
    ⟨_, _, _, token, _, _, _, _, _, same⟩
  · rw [same]
    exact visibleText_unbroken [character]
  · rw [same]
    exact token.shown_unbroken
  · rw [same]
    exact token.shown_unbroken

/-- A report has a line break at its end, one for each diagnostic, and those inside the literals
that are named.  So it has one line for each diagnostic exactly when none of these literals is
broken; one that is belongs to an element of the predicted alternative that must match. -/
theorem parse_report_lines {draft : GrammarDraft} {grammar : Grammar}
    (made : draft.build = .ok grammar) {recognizer : Recognizer}
    (ready : Recognizer.ofGrammar grammar = .ok recognizer) {name input : String}
    {outcome : Outcome} (parsed : recognizer.parse name input = .ok outcome) :
    outcome.report.toList.count '\n' =
        outcome.diagnostics.length +
          (outcome.diagnostics.flatMap Diagnostic.named).count '\n' ∧
      (outcome.report ≠ "" → outcome.report.toList.getLast? = some '\n') ∧
      (OneLineEach outcome.diagnostics outcome.report ↔
        ∀ diagnostic ∈ outcome.diagnostics, '\n' ∉ diagnostic.named) ∧
      ∀ diagnostic ∈ outcome.diagnostics, '\n' ∈ diagnostic.named →
        ∃ rule chosen alternative, grammar.resolveRule? name = some rule ∧
          outcome.alternative = some (chosen + 1) ∧
          rule.alternatives[chosen]? = some alternative ∧
          ∃ element ∈ alternative, element.repetition.isOptional = false ∧
            diagnostic.problem = .mismatch element.literal ∧ '\n' ∈ element.literal.toList := by
  have shown := found_unbroken_of_parse parsed
  refine ⟨Diagnostic.count_report shown, Diagnostic.getLast?_report _,
    Diagnostic.oneLineEach_report_iff shown, ?_⟩
  intro diagnostic member broken
  obtain ⟨expecting, mismatched, inside⟩ := Diagnostic.exists_of_mem_named broken
  obtain ⟨rule, chosen, alternative, _, _, _, resolved, number, listed, _, _, mismatches⟩ :=
    mismatches_of_parse (GrammarDraft.built_of_build draft made) ready parsed member mismatched
  obtain ⟨element, present, literal, needed, _⟩ := mismatches.element
  refine ⟨rule, chosen, alternative, resolved, number, listed, element, present, needed, ?_⟩
  rw [literal]
  exact ⟨mismatched, inside⟩

/-- A grammar with one rule, which asks for a literal once. -/
private def asking (literal : String) : GrammarDraft :=
  { name := "Ask"
    kind := .parser
    tokens := []
    rules := [{ name := "run", alternatives := [[(literal, .once)]], exceptions := [] }]
    delegates := [] }

/-- What is reported where the end of the input stands in place of a literal. -/
private def unmet (line : UInt32) (literal : String) : Diagnostic :=
  { position := ⟨line, 0⟩, found := "<EOF>", problem := .mismatch literal }

theorem parse_report_lines_stray :
    ∃ grammar recognizer outcome, (asking "'a'").build = .ok grammar ∧
      Recognizer.ofGrammar grammar = .ok recognizer ∧
      recognizer.parse "run" "\n" = .ok outcome ∧
      outcome.diagnostics.length = 2 ∧ OneLineEach outcome.diagnostics outcome.report := by
  obtain ⟨grammar, recognizer, made, ready, parsed⟩ :
      ∃ grammar recognizer, (asking "'a'").build = .ok grammar ∧
        Recognizer.ofGrammar grammar = .ok recognizer ∧
        recognizer.parse "run" "\n" =
          .ok
            { alternative := some 1
              diagnostics :=
                [Diagnostic.noViableCharacter '\n' ⟨1, 0⟩, unmet 2 "'a'"] } :=
    ⟨_, _, rfl, rfl, rfl⟩
  obtain ⟨_, _, each, _⟩ := parse_report_lines made ready parsed
  refine ⟨grammar, recognizer, _, made, ready, parsed, rfl, each.mpr ?_⟩
  decide

/-- A literal with a line break in it is named by an error whose text takes two lines. -/
theorem parse_report_broken_literal :
    ∃ grammar recognizer outcome, (asking "'\n'").build = .ok grammar ∧
      Recognizer.ofGrammar grammar = .ok recognizer ∧
      recognizer.parse "run" "" = .ok outcome ∧
      outcome.diagnostics.length = 1 ∧ outcome.report.toList.count '\n' = 2 ∧
      ¬OneLineEach outcome.diagnostics outcome.report := by
  obtain ⟨grammar, recognizer, made, ready, parsed⟩ :
      ∃ grammar recognizer, (asking "'\n'").build = .ok grammar ∧
        Recognizer.ofGrammar grammar = .ok recognizer ∧
        recognizer.parse "run" "" =
          .ok { alternative := some 1, diagnostics := [unmet 1 "'\n'"] } :=
    ⟨_, _, rfl, rfl, rfl⟩
  have total : (Diagnostic.report [unmet 1 "'\n'"]).toList.count '\n' = 2 :=
    Diagnostic.count_report (by decide)
  refine ⟨grammar, recognizer, _, made, ready, parsed, rfl, total, ?_⟩
  intro each
  have single := each.breaks
  rw [Outcome.report, total] at single
  cases single

end LiteralGrammar
