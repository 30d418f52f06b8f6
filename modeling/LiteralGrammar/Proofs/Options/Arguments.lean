/-
Options after a list of arguments.

An argument is granted or refused by its text alone.  So a list is granted
exactly when every argument of it is good, the last target and any verbose flag
decide what it leads to, and the first bad argument decides the error.
-/

import LiteralGrammar.Options.Arguments
import Mathlib.Data.List.Basic

namespace LiteralGrammar

/-! ### Names of targets -/

theorem toNat_toLower (character : Char) :
    character.toLower.toNat =
      if 65 ≤ character.toNat ∧ character.toNat ≤ 90 then character.toNat + 32
      else character.toNat := by
  have sameTest : (character.val ≥ 'A'.val ∧ character.val ≤ 'Z'.val) ↔
      65 ≤ character.toNat ∧ character.toNat ≤ 90 := Iff.rfl
  unfold Char.toLower
  split
  · rename_i capital
    rw [if_pos (sameTest.mp capital)]
    change (character.val + 32).toNat = character.val.toNat + 32
    rw [UInt32.toNat_add]
    apply Nat.mod_eq_of_lt
    have high := (sameTest.mp capital).2
    change character.toNat + 32 < 2 ^ 32
    omega
  · rename_i other
    rw [if_neg (fun capital => other (sameTest.mpr capital))]

theorem capital_iff (capital small : Char) :
    Capital capital small ↔
      65 ≤ capital.toNat ∧ capital.toNat ≤ 90 ∧ small.toNat = capital.toNat + 32 :=
  Iff.rfl

theorem toLower_eq_iff (left right : Char) :
    left.toLower = right.toLower ↔ SameButCase left right := by
  unfold SameButCase
  rw [← Char.toNat_inj, toNat_toLower, toNat_toLower, capital_iff, capital_iff, ← Char.toNat_inj]
  split <;> split <;> omega

namespace Target

theorem foldCase_eq_iff (target : Target) (text : String) :
    foldCase target.name = foldCase text ↔ target.NamedBy text := by
  unfold foldCase NamedBy
  rw [← List.forall₂_eq_eq_eq, List.forall₂_map_left_iff, List.forall₂_map_right_iff]
  simp only [toLower_eq_iff]

theorem ofName_of_namedBy {target : Target} {name : String} (named : target.NamedBy name) :
    ofName name = .ok target := by
  rw [ofName_eq_ok_iff, foldCase_eq_iff]
  exact named

theorem ofName_of_unnamed {name : String} (unnamed : ∀ target : Target, ¬target.NamedBy name) :
    ofName name = .error ⟨name⟩ := by
  rw [ofName_eq_error_iff]
  refine ⟨?_, rfl⟩
  rw [Option.eq_none_iff_forall_ne_some]
  intro target found
  exact unnamed target ((foldCase_eq_iff target name).mp ((ofName?_eq_some_iff name target).mp found))

end Target

namespace Options

/-! ### One argument -/

theorem targetName?_eq_some_iff (argument name : String) :
    targetName? argument = some name ↔ argument = "--target=" ++ name := by
  unfold targetName? targetFlag
  simp only [Option.map_eq_some_iff, List.isPrefixOf?_eq_some_iff_append_eq]
  constructor
  · intro ⟨rest, split, same⟩
    have letters : name.toList = rest := by rw [← same, String.toList_ofList]
    rw [← String.toList_inj, String.toList_append, letters, split]
  · intro same
    exact ⟨name.toList, by rw [same, String.toList_append], String.ofList_toList⟩

theorem targetName?_flagged (name : String) : targetName? ("--target=" ++ name) = some name :=
  (targetName?_eq_some_iff _ name).mpr rfl

theorem targetName?_eq_none_iff (argument : String) :
    targetName? argument = none ↔ ∀ name, argument ≠ "--target=" ++ name := by
  rw [Option.eq_none_iff_forall_ne_some]
  simp only [ne_eq, targetName?_eq_some_iff]

theorem isVerboseFlag_iff (argument : String) :
    isVerboseFlag argument = true ↔ argument = "-v" ∨ argument = "--verbose" := by
  unfold isVerboseFlag
  rw [Bool.or_eq_true, decide_eq_true_eq, decide_eq_true_eq]

def grant (options : Options) : Request → Options
  | .target target => { options with target := target }
  | .verbose => { options with verbose := true }

theorem applyArgument_of_asks {argument : String} {request : Request} (options : Options)
    (asks : Asks argument request) :
    options.applyArgument argument = .ok (options.grant request) := by
  cases asks with
  | target name named =>
      rw [applyArgument, targetName?_flagged]
      change options.withTarget name = _
      rw [withTarget, Target.ofName_of_namedBy named]
      rfl
  | short => rfl
  | long => rfl

theorem applyArgument_of_blamed {argument : String} {error : OptionError} (options : Options)
    (blamed : Blamed argument error) : options.applyArgument argument = .error error := by
  cases blamed with
  | target name unnamed =>
      rw [applyArgument, targetName?_flagged]
      change options.withTarget name = _
      rw [withTarget, Target.ofName_of_unnamed unnamed]
  | option _ noTarget notShort notLong =>
      have notVerbose : ¬isVerboseFlag argument = true := by
        rw [isVerboseFlag_iff, not_or]
        exact ⟨notShort, notLong⟩
      rw [applyArgument, (targetName?_eq_none_iff argument).mpr noTarget]
      exact if_neg notVerbose

/-- An argument asks for something or is to blame. -/
theorem good_or_blamed (argument : String) :
    Good argument ∨ ∃ error, Blamed argument error := by
  by_cases flagged : ∃ name, argument = "--target=" ++ name
  · obtain ⟨name, same⟩ := flagged
    rw [same]
    by_cases named : ∃ target : Target, target.NamedBy name
    · obtain ⟨target, names⟩ := named
      exact Or.inl ⟨_, .target name names⟩
    · exact Or.inr ⟨_, .target name (not_exists.mp named)⟩
  · by_cases short : argument = "-v"
    · rw [short]
      exact Or.inl ⟨_, .short⟩
    by_cases long : argument = "--verbose"
    · rw [long]
      exact Or.inl ⟨_, .long⟩
    exact Or.inr ⟨_, .option argument (not_exists.mp flagged) short long⟩

/-! ### Any number of arguments -/

theorem applyAll_append (options : Options) (arguments more : List String) :
    options.applyAll (arguments ++ more) =
      match options.applyAll arguments with
      | .ok applied => applied.applyAll more
      | .error error => .error error := by
  induction arguments generalizing options with
  | nil => rfl
  | cons argument rest ih =>
      rw [List.cons_append, applyAll, applyAll]
      cases options.applyArgument argument with
      | ok applied => exact ih applied
      | error error => rfl

theorem forall_good_iff (arguments : List String) :
    (∀ argument ∈ arguments, Good argument) ↔
      ∃ requests, List.Forall₂ Asks arguments requests := by
  induction arguments with
  | nil => simp
  | cons argument rest ih =>
      rw [List.forall_mem_cons, ih]
      constructor
      · intro ⟨⟨request, asks⟩, requests, later⟩
        exact ⟨request :: requests, .cons asks later⟩
      · intro ⟨requests, all⟩
        cases all with
        | cons asks later => exact ⟨⟨_, asks⟩, _, later⟩

theorem applyAll_of_asks (options : Options) {arguments : List String} {requests : List Request}
    (asks : List.Forall₂ Asks arguments requests) :
    options.applyAll arguments = .ok (requests.foldl grant options) := by
  induction asks generalizing options with
  | nil => rfl
  | cons first _ ih =>
      rw [applyAll, applyArgument_of_asks options first, List.foldl_cons]
      exact ih (options.grant _)

/-- The first bad argument decides, whatever comes after it. -/
theorem applyAll_of_blamed (options : Options) {good : List String} {bad : String}
    {error : OptionError} (rest : List String) (allGood : ∀ argument ∈ good, Good argument)
    (blamed : Blamed bad error) : options.applyAll (good ++ bad :: rest) = .error error := by
  obtain ⟨requests, asks⟩ := (forall_good_iff good).mp allGood
  rw [applyAll_append, applyAll_of_asks options asks]
  change applyAll _ (bad :: rest) = _
  rw [applyAll, applyArgument_of_blamed _ blamed]

/-- Where not every argument is good, there is a first that is not. -/
theorem all_good_or_first_bad (arguments : List String) :
    (∀ argument ∈ arguments, Good argument) ∨
      ∃ good bad rest error, arguments = good ++ bad :: rest ∧
        (∀ argument ∈ good, Good argument) ∧ Blamed bad error := by
  induction arguments with
  | nil => exact Or.inl (fun _ impossible => by cases impossible)
  | cons argument later ih =>
      rcases good_or_blamed argument with isGood | ⟨error, blamed⟩
      · rcases ih with allGood | ⟨good, bad, rest, error, same, allGood, blamed⟩
        · exact Or.inl (List.forall_mem_cons.mpr ⟨isGood, allGood⟩)
        · refine Or.inr ⟨argument :: good, bad, rest, error, ?_,
            List.forall_mem_cons.mpr ⟨isGood, allGood⟩, blamed⟩
          rw [same, List.cons_append]
      · refine Or.inr ⟨[], argument, later, error, rfl, ?_, blamed⟩
        intro _ impossible
        cases impossible

theorem applyAll_eq_ok_iff (options applied : Options) (arguments : List String) :
    options.applyAll arguments = .ok applied ↔
      ∃ requests, List.Forall₂ Asks arguments requests ∧
        applied = requests.foldl grant options := by
  constructor
  · intro succeeded
    rcases all_good_or_first_bad arguments with allGood | ⟨good, bad, rest, error, same, rests⟩
    · obtain ⟨requests, asks⟩ := (forall_good_iff arguments).mp allGood
      rw [applyAll_of_asks options asks] at succeeded
      exact ⟨requests, asks, (Except.ok.inj succeeded).symm⟩
    · rw [same, applyAll_of_blamed options rest rests.1 rests.2] at succeeded
      cases succeeded
  · intro ⟨requests, asks, same⟩
    rw [applyAll_of_asks options asks, same]

theorem applyAll_eq_error_iff (options : Options) (arguments : List String)
    (error : OptionError) :
    options.applyAll arguments = .error error ↔
      ∃ good bad rest, arguments = good ++ bad :: rest ∧
        (∀ argument ∈ good, Good argument) ∧ Blamed bad error := by
  constructor
  · intro failed
    rcases all_good_or_first_bad arguments with
      allGood | ⟨good, bad, rest, blame, same, goods, blamed⟩
    · obtain ⟨requests, asks⟩ := (forall_good_iff arguments).mp allGood
      rw [applyAll_of_asks options asks] at failed
      cases failed
    · rw [same, applyAll_of_blamed options rest goods blamed] at failed
      rw [← Except.error.inj failed]
      exact ⟨good, bad, rest, same, goods, blamed⟩
  · intro ⟨good, bad, rest, same, goods, blamed⟩
    rw [same]
    exact applyAll_of_blamed options rest goods blamed

/-! ### What requests lead to -/

theorem Asks.unflagged {argument : String} (asks : Asks argument .verbose) (name : String) :
    argument ≠ "--target=" ++ name := by
  apply (targetName?_eq_none_iff argument).mp
  cases asks with
  | short => rfl
  | long => rfl

theorem Asks.verbose_iff {argument : String} {request : Request}
    (asks : Asks argument request) :
    request = .verbose ↔ argument = "-v" ∨ argument = "--verbose" := by
  constructor
  · intro same
    rw [same] at asks
    cases asks with
    | short => exact Or.inl rfl
    | long => exact Or.inr rfl
  · intro flag
    cases asks with
    | target name named =>
        rcases flag with short | long
        · exact absurd short.symm (Asks.short.unflagged name)
        · exact absurd long.symm (Asks.long.unflagged name)
    | short => rfl
    | long => rfl

theorem grant_verbose (options : Options) (request : Request) :
    (options.grant request).verbose = true ↔ options.verbose = true ∨ request = .verbose := by
  cases request with
  | target target => simp [grant]
  | verbose => simp [grant]

/-- The induction is on the arguments; each keeps the target so far or names its own. -/
theorem lastTarget_of_asks {arguments : List String} {requests : List Request}
    (asks : List.Forall₂ Asks arguments requests) (options : Options) :
    LastTarget arguments options.target (requests.foldl grant options).target := by
  induction asks generalizing options with
  | nil => exact Or.inr ⟨fun _ impossible => (by cases impossible), rfl⟩
  | @cons argument request rest _ first _ ih =>
      rw [List.foldl_cons]
      rcases ih (options.grant request) with
        ⟨earlier, name, later, split, named, last⟩ | ⟨unnamed, kept⟩
      · refine Or.inl ⟨argument :: earlier, name, later, ?_, named, last⟩
        rw [split, List.cons_append]
      · -- No argument after this one names a target, so this one decides.
        rw [kept]
        cases request with
        | verbose => exact Or.inr ⟨List.forall_mem_cons.mpr ⟨first.unflagged, unnamed⟩, rfl⟩
        | target target =>
            cases first with
            | target name named => exact Or.inl ⟨[], name, rest, rfl, named, unnamed⟩

theorem verbose_of_asks {arguments : List String} {requests : List Request}
    (asks : List.Forall₂ Asks arguments requests) (options : Options) :
    (requests.foldl grant options).verbose = true ↔
      options.verbose = true ∨ "-v" ∈ arguments ∨ "--verbose" ∈ arguments := by
  induction asks generalizing options with
  | nil => simp
  | cons first _ ih =>
      rw [List.foldl_cons, ih, grant_verbose, first.verbose_iff, List.mem_cons, List.mem_cons,
        eq_comm (a := "-v"), eq_comm (a := "--verbose")]
      tauto

/-! ### The whole list -/

/-- What a list of arguments comes to on top of given options. -/
structure FoldsArguments (base : Options) (arguments : List String) : Prop where
  append : ∀ more, base.applyAll (arguments ++ more) =
    match base.applyAll arguments with
    | .ok options => options.applyAll more
    | .error error => .error error
  succeeds : (∃ options, base.applyAll arguments = .ok options) ↔
    ∀ argument ∈ arguments, Good argument
  target : ∀ options, base.applyAll arguments = .ok options →
    LastTarget arguments base.target options.target
  verbose : ∀ options, base.applyAll arguments = .ok options →
    (options.verbose = true ↔
      base.verbose = true ∨ "-v" ∈ arguments ∨ "--verbose" ∈ arguments)
  fails : ∀ error, base.applyAll arguments = .error error ↔
    ∃ good bad rest, arguments = good ++ bad :: rest ∧
      (∀ argument ∈ good, Good argument) ∧ Blamed bad error

/-- Arguments are applied from left to right up to the first bad one, which alone decides the
error; where there is none, the last target counts, and any verbose flag. -/
theorem applyAll_folds (base : Options) (arguments : List String) :
    FoldsArguments base arguments where
  append := applyAll_append base arguments
  succeeds := by
    rw [forall_good_iff]
    constructor
    · intro ⟨options, succeeded⟩
      obtain ⟨requests, asks, _⟩ := (applyAll_eq_ok_iff _ _ _).mp succeeded
      exact ⟨requests, asks⟩
    · intro ⟨requests, asks⟩
      exact ⟨_, applyAll_of_asks base asks⟩
  target := by
    intro options succeeded
    obtain ⟨requests, asks, same⟩ := (applyAll_eq_ok_iff _ _ _).mp succeeded
    rw [same]
    exact lastTarget_of_asks asks base
  verbose := by
    intro options succeeded
    obtain ⟨requests, asks, same⟩ := (applyAll_eq_ok_iff _ _ _).mp succeeded
    rw [same]
    exact verbose_of_asks asks base
  fails := applyAll_eq_error_iff base arguments

example : default.applyAll ["-v", "--target=DELPHI", "--target=apex"] =
    .ok { target := .apex, verbose := true } := by decide

example : default.applyAll ["-v", "--target=", "--fast"] =
    .error (.unknownTarget ⟨""⟩) := by decide

end Options

end LiteralGrammar
