/-
The lexer against the description of tokens and errors.

A lexer's literals are those of the vocabulary that stand for some characters,
in the same order, so what it takes at each place is what the description asks
for, and the places that it steps through are the counted ones: as words of 32
bits always, and in full before every character of an input that is not too long.
The description leaves no choice; and since no piece of an input is empty, places
only go forward.
-/

import LiteralGrammar.Proofs.Token.Stream
import LiteralGrammar.Token.Reading

namespace LiteralGrammar

/-! ### Literals of a lexer and of its vocabulary -/

namespace Lexer

theorem mem_literals_of_denotes {vocabulary : Vocabulary} {lexer : Lexer}
    (made : ofVocabulary vocabulary = .ok lexer) {literal : TokenType × String}
    (member : literal ∈ vocabulary.literals) {value : List Char}
    (denotes : Literal.Denotes literal.2 value) (visible : value ≠ []) :
    (literal.1, value) ∈ lexer.literals := by
  rcases ofVocabulary_eq_ok_iff.mp made with ⟨decoded, read, same⟩
  rw [same, List.mem_filter, mem_decodeLiterals_iff read]
  refine ⟨⟨literal.2, String.ofList value, member, denotes, ?_⟩, ?_⟩
  · exact String.toList_ofList.symm
  · simpa using visible

/-- The first visible value of some kind comes from the first literal that stands for it: what
is left out before it stands for no characters at all. -/
theorem first_of_decodeLiterals {literals : List (TokenType × String)}
    {decoded earlier later : List (TokenType × List Char)} {type : TokenType} {text : List Char}
    (read : decodeLiterals literals = .ok decoded)
    (split : decoded.filter (fun literal => !literal.2.isEmpty) =
      earlier ++ (type, text) :: later)
    (fresh : ∀ other ∈ earlier, other.2 ≠ text) :
    ∃ before name after, literals = before ++ (type, name) :: after ∧
      Literal.Denotes name text ∧ ∀ other ∈ before, ¬Literal.Denotes other.2 text := by
  induction literals generalizing decoded earlier with
  | nil =>
      cases read
      exact absurd split.symm (List.append_ne_nil_of_right_ne_nil _ (List.cons_ne_nil _ _))
  | cons literal rest ih =>
      rcases decodeLiterals_cons_eq_ok_iff.mp read with ⟨value, others, valueRead, restRead, same⟩
      have solid : text ≠ [] := by
        have member : (type, text) ∈ decoded.filter (fun literal => !literal.2.isEmpty) := by
          rw [split]
          exact List.mem_append_right earlier List.mem_cons_self
        simpa using (List.mem_filter.mp member).2
      -- A literal with another value goes in front of those that `ih` finds for the rest.
      have pass {kept : List (TokenType × List Char)} (different : value.toList ≠ text)
          (keptSplit : others.filter (fun literal => !literal.2.isEmpty) =
            kept ++ (type, text) :: later) (keptFresh : ∀ other ∈ kept, other.2 ≠ text) :
          ∃ before name after, literal :: rest = before ++ (type, name) :: after ∧
            Literal.Denotes name text ∧ ∀ other ∈ before, ¬Literal.Denotes other.2 text := by
        obtain ⟨before, name, after, restSplit, denotes, missing⟩ :=
          ih restRead keptSplit keptFresh
        refine ⟨literal :: before, name, after, by rw [restSplit]; rfl, denotes, ?_⟩
        refine List.forall_mem_cons.mpr ⟨?_, missing⟩
        intro denotesToo
        unfold Literal.Denotes at denotesToo
        rw [valueRead] at denotesToo
        apply different
        rw [Except.ok.inj denotesToo, String.toList_ofList]
      rw [same] at split
      by_cases empty : value.toList = []
      · rw [List.filter_cons_of_neg (by simp [empty])] at split
        exact pass (fun equal => solid (equal.symm.trans empty)) split fresh
      · rw [List.filter_cons_of_pos (by simpa using empty)] at split
        cases earlier with
        | nil =>
            cases split
            refine ⟨[], literal.2, rest, rfl, ?_, List.forall_mem_nil _⟩
            unfold Literal.Denotes
            rw [valueRead, String.ofList_toList]
        | cons head tail =>
            obtain ⟨headSame, tailSplit⟩ := List.cons.inj split
            obtain ⟨headFresh, tailFresh⟩ := List.forall_mem_cons.mp fresh
            rw [← headSame] at headFresh
            exact pass headFresh tailSplit tailFresh

theorem munch_of_longest {vocabulary : Vocabulary} {lexer : Lexer}
    (made : ofVocabulary vocabulary = .ok lexer) {input text : List Char} {type : TokenType}
    (longest : lexer.Longest input type text) : vocabulary.Munch input type text := by
  have solid : text ≠ [] := solid_of_ofVocabulary made _ longest.mem
  obtain ⟨earlier, later, split, fits, bound, fresh⟩ := longest
  refine ⟨solid, fits, ?_, ?_⟩
  · intro literal member value denotes valueFits
    by_cases visible : value = []
    · rw [visible]
      exact Nat.zero_le _
    · exact bound _ (mem_literals_of_denotes made member denotes visible) valueFits
  · rcases ofVocabulary_eq_ok_iff.mp made with ⟨decoded, read, same⟩
    exact first_of_decodeLiterals read (same.symm.trans split) fresh

theorem noMunch_of_no_literal {vocabulary : Vocabulary} {lexer : Lexer}
    (made : ofVocabulary vocabulary = .ok lexer) {input : List Char}
    (missing : ∀ literal ∈ lexer.literals, ¬literal.2 <+: input) : vocabulary.NoMunch input := by
  intro literal member value denotes fits
  apply Classical.byContradiction
  intro visible
  exact missing _ (mem_literals_of_denotes made member denotes visible) fits

end Lexer

/-! ### Places and the texts before them -/

namespace Position

theorem counted_append (before text : List Char) :
    counted (before ++ text) = (counted before).advance text := by
  induction text generalizing before with
  | nil => rw [List.append_nil]; rfl
  | cons character rest ih =>
      rw [List.append_cons, ih, counted_concat]
      rfl

theorem lineAfter_append (text more : List Char) :
    lineAfter (text ++ more) = lineAfter text + more.count '\n' := by
  unfold lineAfter
  rw [List.count_append, Nat.add_assoc]

theorem columnAfter_append (text : List Char) {more : List Char} (unbroken : '\n' ∉ more) :
    columnAfter (text ++ more) = columnAfter text + more.length := by
  unfold columnAfter
  have kept : ∀ character ∈ more.reverse, decide (character ≠ '\n') = true := by
    intro character member
    apply decide_eq_true
    intro lineBreak
    rw [lineBreak] at member
    exact unbroken (List.mem_reverse.mp member)
  rw [List.reverse_append, List.takeWhile_append_of_pos kept, List.length_append,
    List.length_reverse, Nat.add_comm]

theorem count_add_length_takeWhile_le (text : List Char) :
    text.count '\n' + (text.takeWhile (fun character => character ≠ '\n')).length ≤
      text.length := by
  induction text with
  | nil => exact Nat.le_refl 0
  | cons character rest ih =>
      by_cases lineBreak : character = '\n'
      · rw [List.takeWhile_cons_of_neg (by simpa using lineBreak)]
        exact List.count_le_length
      · rw [List.takeWhile_cons_of_pos (by simpa using lineBreak), List.length_cons,
          List.length_cons, List.count_cons_of_ne lineBreak]
        omega

theorem lineAfter_add_columnAfter_le (text : List Char) :
    lineAfter text + columnAfter text ≤ text.length + 1 := by
  have bound := count_add_length_takeWhile_le text.reverse
  rw [List.count_reverse, List.length_reverse] at bound
  unfold lineAfter columnAfter
  omega

theorem Marks.eq_counted {position : Position} {text : List Char} (marks : position.Marks text) :
    position = counted text := by
  cases position
  unfold counted
  rw [← marks.line, ← marks.column, UInt32.ofNat_toNat, UInt32.ofNat_toNat]

theorem marks_counted_iff {text : List Char} (short : text.length < UInt32.size) :
    (counted text).Marks text ↔ lineAfter text < UInt32.size := by
  have bound := lineAfter_add_columnAfter_le text
  have first : 1 ≤ lineAfter text := Nat.le_add_right _ _
  constructor
  · intro marks
    rw [← marks.line]
    exact UInt32.toNat_lt _
  · intro fits
    have narrow : columnAfter text < UInt32.size := by omega
    exact {
      line := UInt32.toNat_ofNat_of_lt' fits
      column := UInt32.toNat_ofNat_of_lt' narrow }

/-- The place of a character in a text that is not too long is counted in full. -/
theorem marks_counted_of_append {before rest : List Char} (solid : rest ≠ [])
    (short : (before ++ rest).length < UInt32.size) : (counted before).Marks before := by
  have more := List.length_pos_iff.mpr solid
  have bound := lineAfter_add_columnAfter_le before
  rw [List.length_append] at short
  exact (marks_counted_iff (by omega)).mpr (by omega)

/-- A place with more text before it comes later. -/
theorem Marks.before {left right : Position} {text more : List Char} (here : left.Marks text)
    (there : right.Marks (text ++ more)) (solid : more ≠ []) : Before left right := by
  unfold Before
  rw [UInt32.lt_iff_toNat_lt, UInt32.lt_iff_toNat_lt, ← UInt32.toNat_inj, here.line, here.column,
    there.line, there.column, lineAfter_append]
  by_cases broken : '\n' ∈ more
  · have counted := List.count_pos_iff.mpr broken
    omega
  · have length := List.length_pos_iff.mpr solid
    rw [columnAfter_append text broken, List.count_eq_zero.mpr broken]
    omega

/-- The end of a text is told from every place in it, even where its line cannot be numbered. -/
theorem Marks.ne_counted {position : Position} {text more : List Char}
    (here : position.Marks text) (solid : more ≠ []) (short : (text ++ more).length < UInt32.size) :
    position ≠ counted (text ++ more) := by
  by_cases fits : lineAfter (text ++ more) < UInt32.size
  · exact (here.before ((marks_counted_iff short).mpr fits) solid).ne
  -- Counting has started over at the end, and no character stands on a line zero.
  · intro same
    have bound := lineAfter_add_columnAfter_le (text ++ more)
    have last : lineAfter (text ++ more) = UInt32.size := by omega
    have line := here.line
    rw [same, counted, last] at line
    unfold lineAfter at line
    change 0 = _ at line
    omega

/-- Whether a place is that of some character of what is left, given the text before it. -/
def Within (position : Position) (before input : List Char) : Prop :=
  ∃ taken rest, rest ≠ [] ∧ taken ++ rest = input ∧ position.Marks (before ++ taken)

theorem Marks.within {position : Position} {before input : List Char}
    (here : position.Marks before) (solid : input ≠ []) : position.Within before input := by
  refine ⟨[], input, solid, rfl, ?_⟩
  rw [List.append_nil]
  exact here

theorem Within.ahead {position : Position} {before text rest : List Char}
    (within : position.Within (before ++ text) rest) : position.Within before (text ++ rest) := by
  obtain ⟨taken, later, solid, same, marks⟩ := within
  refine ⟨text ++ taken, later, solid, ?_, ?_⟩
  · rw [List.append_assoc, same]
  · rw [← List.append_assoc]
    exact marks

theorem Within.behind {position other : Position} {before text rest : List Char}
    (within : other.Within (before ++ text) rest) (here : position.Marks before)
    (solid : text ≠ []) : Before position other := by
  obtain ⟨taken, _, _, _, marks⟩ := within
  rw [List.append_assoc] at marks
  exact here.before marks (List.append_ne_nil_of_left_ne_nil solid taken)

end Position

/-! ### The lexer follows the description -/

namespace Lexer

/-- One piece after the other, the located pieces of an input are its tokens and errors. -/
theorem reads_locate {vocabulary : Vocabulary} {lexer : Lexer}
    (made : ofVocabulary vocabulary = .ok lexer) {input : List Char} {pieces : List Piece}
    (cut : lexer.Segments input pieces) (before : List Char)
    (short : (before ++ input).length < UInt32.size) :
    vocabulary.Reads before input (locate (Position.counted before) pieces).stream.body
      (locate (Position.counted before) pieces).diagnostics := by
  induction cut generalizing before with
  | nil => exact Vocabulary.Reads.finished
  | @token type text rest pieces longest _ ih =>
      have munch := munch_of_longest made longest
      have solid := List.append_ne_nil_of_left_ne_nil munch.solid rest
      have later := ih (before ++ text) (by rw [List.append_assoc]; exact short)
      rw [Position.counted_append] at later
      refine Vocabulary.Reads.token munch (Position.marks_counted_of_append solid short) ?_
      rw [List.drop_left]
      exact later
  | @stray character rest pieces none _ ih =>
      have solid := List.cons_ne_nil character rest
      have later := ih (before ++ [character]) (by rw [← List.append_cons]; exact short)
      rw [Position.counted_append] at later
      exact Vocabulary.Reads.stray (noMunch_of_no_literal made none)
        (Position.marks_counted_of_append solid short) later

theorem reads_tokenize {vocabulary : Vocabulary} {lexer : Lexer}
    (made : ofVocabulary vocabulary = .ok lexer) {input : String}
    (short : input.length < UInt32.size) :
    vocabulary.Reads [] input.toList (lexer.tokenize input).stream.body
      (lexer.tokenize input).diagnostics :=
  reads_locate made (segments_pieces (solid_of_ofVocabulary made) input.toList) [] short

theorem tokenize_last {vocabulary : Vocabulary} {lexer : Lexer}
    (made : ofVocabulary vocabulary = .ok lexer) (input : String) :
    (lexer.tokenize input).stream.last = Token.endOfInput (Position.counted input.toList) := by
  have cut := segments_pieces (solid_of_ofVocabulary made) input.toList
  rw [tokenize, locate_last, cut.texts, ← Position.counted_nil, ← Position.counted_append]
  rfl

end Lexer

/-! ### The description leaves no choice -/

namespace Vocabulary

variable {vocabulary : Vocabulary}

theorem Munch.exists_literal {input text : List Char} {type : TokenType}
    (munch : vocabulary.Munch input type text) :
    ∃ literal ∈ vocabulary.literals, Literal.Denotes literal.2 text := by
  obtain ⟨earlier, name, later, split, denotes, _⟩ := munch.first
  refine ⟨(type, name), ?_, denotes⟩
  rw [split]
  exact List.mem_append_right earlier List.mem_cons_self

theorem Munch.length_le {input text otherText : List Char} {type otherType : TokenType}
    (munch : vocabulary.Munch input type text)
    (other : vocabulary.Munch input otherType otherText) : otherText.length ≤ text.length := by
  obtain ⟨literal, member, denotes⟩ := other.exists_literal
  exact munch.longest literal member otherText denotes other.fits

open Classical in
/-- The first literal that stands for a text is found by looking for one. -/
theorem Munch.find?_literals {input text : List Char} {type : TokenType}
    (munch : vocabulary.Munch input type text) :
    (vocabulary.literals.find? (fun literal => Literal.Denotes literal.2 text)).map Prod.fst =
      some type := by
  obtain ⟨earlier, name, later, split, denotes, fresh⟩ := munch.first
  have found : vocabulary.literals.find? (fun literal => Literal.Denotes literal.2 text) =
      some (type, name) := by
    refine List.find?_eq_some_iff_append.mpr
      ⟨decide_eq_true denotes, earlier, later, split, ?_⟩
    intro literal member
    rw [decide_eq_false (fresh literal member)]
    rfl
  rw [found]
  rfl

theorem Munch.unique {input text otherText : List Char} {type otherType : TokenType}
    (munch : vocabulary.Munch input type text)
    (other : vocabulary.Munch input otherType otherText) :
    type = otherType ∧ text = otherText := by
  have sameLength := Nat.le_antisymm (other.length_le munch) (munch.length_le other)
  have sameText : text = otherText :=
    (List.prefix_of_prefix_length_le munch.fits other.fits
      (Nat.le_of_eq sameLength)).eq_of_length sameLength
  subst sameText
  exact ⟨Option.some.inj (munch.find?_literals.symm.trans other.find?_literals), rfl⟩

theorem Munch.not_noMunch {input text : List Char} {type : TokenType}
    (munch : vocabulary.Munch input type text) : ¬vocabulary.NoMunch input := by
  intro refused
  obtain ⟨literal, member, denotes⟩ := munch.exists_literal
  exact munch.solid (refused literal member text denotes munch.fits)

theorem Munch.input_ne_nil {input text : List Char} {type : TokenType}
    (munch : vocabulary.Munch input type text) : input ≠ [] := by
  intro empty
  have fits := munch.fits
  rw [empty] at fits
  exact munch.solid (List.prefix_nil.mp fits)

theorem Reads.unique {before input : List Char} {tokens otherTokens : List Token}
    {errors otherErrors : List Diagnostic}
    (reads : vocabulary.Reads before input tokens errors)
    (other : vocabulary.Reads before input otherTokens otherErrors) :
    tokens = otherTokens ∧ errors = otherErrors := by
  induction reads generalizing otherTokens otherErrors with
  | finished =>
      cases other with
      | finished => exact ⟨rfl, rfl⟩
      | token munch _ _ => exact absurd rfl munch.input_ne_nil
  | token munch place _ ih =>
      cases other with
      | finished => exact absurd rfl munch.input_ne_nil
      | token otherMunch otherPlace otherLater =>
          obtain ⟨sameType, sameText⟩ := munch.unique otherMunch
          subst sameType
          subst sameText
          obtain ⟨sameTokens, sameErrors⟩ := ih otherLater
          exact ⟨by rw [sameTokens, place.eq_counted, otherPlace.eq_counted], sameErrors⟩
      | stray refused _ _ => exact absurd refused munch.not_noMunch
  | stray refused place _ ih =>
      cases other with
      | token munch _ _ => exact absurd refused munch.not_noMunch
      | stray _ otherPlace otherLater =>
          obtain ⟨sameTokens, sameErrors⟩ := ih otherLater
          exact ⟨sameTokens, by rw [sameErrors, place.eq_counted, otherPlace.eq_counted]⟩

end Vocabulary

/-! ### Places go forward -/

namespace Vocabulary

open Position

variable {vocabulary : Vocabulary}

/-- Every token and every error of what is left stands at one of its characters. -/
theorem Reads.within {before input : List Char} {tokens : List Token} {errors : List Diagnostic}
    (reads : vocabulary.Reads before input tokens errors) :
    (∀ token ∈ tokens, token.position.Within before input) ∧
      ∀ error ∈ errors, error.position.Within before input := by
  induction reads with
  | finished => exact ⟨List.forall_mem_nil _, List.forall_mem_nil _⟩
  | @token before input text _ _ tokens errors munch place _ ih =>
      have split : text ++ input.drop text.length = input :=
        List.prefix_iff_eq_append.mp munch.fits
      rw [← split]
      refine ⟨List.forall_mem_cons.mpr ⟨?_, fun token member => (ih.1 token member).ahead⟩,
        fun error member => (ih.2 error member).ahead⟩
      exact place.within (List.append_ne_nil_of_left_ne_nil munch.solid _)
  | @stray before rest character _ tokens errors _ place _ ih =>
      refine ⟨fun token member => (ih.1 token member).ahead,
        List.forall_mem_cons.mpr ⟨?_, fun error member => (ih.2 error member).ahead⟩⟩
      exact place.within (List.cons_ne_nil character rest)

theorem Reads.tokens_ascending {before input : List Char} {tokens : List Token}
    {errors : List Diagnostic} (reads : vocabulary.Reads before input tokens errors) :
    tokens.Pairwise (fun earlier later => Before earlier.position later.position) := by
  induction reads with
  | finished => exact List.Pairwise.nil
  | token munch place later ih =>
      refine List.pairwise_cons.mpr ⟨?_, ih⟩
      exact fun token member => (later.within.1 token member).behind place munch.solid
  | stray _ _ _ ih => exact ih

theorem Reads.apart {before input : List Char} {tokens : List Token} {errors : List Diagnostic}
    (reads : vocabulary.Reads before input tokens errors) :
    ∀ token ∈ tokens, ∀ error ∈ errors, token.position ≠ error.position := by
  induction reads with
  | finished => exact List.forall_mem_nil _
  | token munch place later ih =>
      refine List.forall_mem_cons.mpr ⟨?_, ih⟩
      exact fun error member => ((later.within.2 error member).behind place munch.solid).ne
  | stray _ place later ih =>
      intro token member
      refine List.forall_mem_cons.mpr ⟨?_, ih token member⟩
      exact ((later.within.1 token member).behind place (List.cons_ne_nil _ [])).ne.symm

end Vocabulary

/-! ### The end of the input -/

namespace Position

theorem Within.ne_counted {position : Position} {input : List Char}
    (within : position.Within [] input) (short : input.length < UInt32.size) :
    position ≠ counted input := by
  obtain ⟨taken, rest, solid, same, marks⟩ := within
  rw [← same] at short ⊢
  exact marks.ne_counted solid short

end Position

theorem TokenStream.pairwise_tokens {relation : Token → Token → Prop} {stream : TokenStream}
    (body : stream.body.Pairwise relation)
    (last : ∀ token ∈ stream.body, relation token stream.last) :
    stream.tokens.Pairwise relation := by
  refine List.pairwise_append.mpr ⟨body, List.pairwise_singleton _ _, ?_⟩
  exact fun token member => List.forall_mem_singleton.mpr (last token member)

namespace Lexer

/-- No two tokens of an input that is not too long stand at one place. -/
theorem tokens_apart {vocabulary : Vocabulary} {lexer : Lexer}
    (made : ofVocabulary vocabulary = .ok lexer) {input : String}
    (short : input.length < UInt32.size) :
    (lexer.tokenize input).stream.tokens.Pairwise
      (fun left right => left.position ≠ right.position) := by
  have reads := reads_tokenize made short
  refine TokenStream.pairwise_tokens (reads.tokens_ascending.imp (fun before => before.ne)) ?_
  intro token member
  rw [tokenize_last made]
  exact (reads.within.1 token member).ne_counted short

end Lexer

end LiteralGrammar
