/-
The work lists hold every place once.

After any types the list of configurations has each place that these types can
lead to, no other, and none twice.  There are no more places than two for each
slot and one for each alternative, and every round of going through a work list
passes one of them; so the rounds are bounded too.
-/

import LiteralGrammar.Proofs.Decision.Worklist
import Mathlib.Data.List.Nodup
import Mathlib.Data.List.Perm.Subperm

namespace LiteralGrammar.Decision

/-! ### Single additions -/

theorem nodup_addNew {configs : List Config} (distinct : configs.Nodup)
    (added : Option Config) : (addNew configs added).Nodup := by
  cases added with
  | none => exact distinct
  | some new =>
      simp only [addNew]
      split
      · exact distinct
      · rename_i fresh
        exact List.nodup_append_comm.mp (List.nodup_cons.mpr ⟨fresh, distinct⟩)

theorem prefix_addNew (configs : List Config) (added : Option Config) :
    configs <+: addNew configs added := by
  cases added with
  | none => exact List.prefix_refl configs
  | some new =>
      simp only [addNew]
      split
      · exact List.prefix_refl configs
      · exact List.prefix_append configs [new]

theorem nodup_moveEach? {decision : Decision} {type : TokenType} {moved configs all : List Config}
    (distinct : moved.Nodup) (found : decision.moveEach? type moved configs = some all) :
    all.Nodup := by
  induction configs generalizing moved with
  | nil =>
      cases found
      exact distinct
  | cons config rest ih =>
      rw [moveEach?] at found
      split at found
      · cases found
      · exact ih (nodup_addNew distinct _) found

/-! ### Rounds of going through a list -/

/-- What additions preserve holds of a list that has been gone through. -/
theorem closeFrom_induction {decision : Decision} (Holds : List Config → Prop)
    (preserved : ∀ configs added, Holds configs → Holds (addNew configs added))
    {configs closed : List Config} {index : Nat} (base : Holds configs)
    (found : decision.closeFrom configs index = some closed) : Holds closed := by
  induction configs, index using closeFrom.induct decision with
  | case1 configs index ended =>
      rw [closeFrom_ended ended] at found
      cases found
      exact base
  | case2 configs index config present missing =>
      rw [closeFrom_missed present missing] at found
      cases found
  | case3 configs index config present slots listed ih =>
      rw [closeFrom_listed present listed] at found
      exact ih (preserved configs _ base) found

theorem prefix_closeFrom {decision : Decision} {configs closed : List Config} {index : Nat}
    (found : decision.closeFrom configs index = some closed) : configs <+: closed :=
  closeFrom_induction (configs <+: ·) (fun _ added starts => starts.trans (prefix_addNew _ added))
    (List.prefix_refl configs) found

/-- A list is gone through in as many rounds as it has configurations in the end. -/
theorem closeWithin?_eq {decision : Decision} {configs closed : List Config} {index : Nat}
    (found : decision.closeFrom configs index = some closed) {rounds : Nat}
    (enough : closed.length ≤ index + rounds) :
    decision.closeWithin? rounds configs index = some closed := by
  induction configs, index using closeFrom.induct decision generalizing rounds with
  | case1 configs index ended =>
      rw [closeFrom_ended ended] at found
      cases found
      cases rounds with
      | zero => exact if_pos (List.getElem?_eq_none_iff.mp ended)
      | succ rounds => rw [closeWithin?, ended]
  | case2 configs index config present missing =>
      rw [closeFrom_missed present missing] at found
      cases found
  | case3 configs index config present slots listed ih =>
      have inside := (List.getElem?_eq_some_iff.mp present).1
      have grown := (prefix_closeFrom found).length_le
      rw [closeFrom_listed present listed] at found
      -- The configuration at the index is in the list to the end, so a round is left for it.
      cases rounds with
      | zero => omega
      | succ rounds =>
          rw [closeWithin?, present]
          simp only [listed]
          exact ih found (by omega)

/-! ### All places there are -/

def placesOf (alternative : Nat) (slots : List Slot) : List Config :=
  (List.range (slots.length + 1)).map (fun position => ⟨alternative, position, false⟩) ++
    (List.range slots.length).map (fun position => ⟨alternative, position, true⟩)

def places (decision : Decision) : List Config :=
  decision.alternatives.zipIdx.flatMap (fun entry => placesOf entry.2 entry.1)

theorem length_placesOf (alternative : Nat) (slots : List Slot) :
    (placesOf alternative slots).length = 2 * slots.length + 1 := by
  simp only [placesOf, List.length_append, List.length_map, List.length_range]
  omega

theorem length_flatMap_placesOf (alternatives : List (List Slot)) (first : Nat) :
    ((alternatives.zipIdx first).flatMap (fun entry => placesOf entry.2 entry.1)).length =
      2 * alternatives.flatten.length + alternatives.length := by
  induction alternatives generalizing first with
  | nil => rfl
  | cons slots rest ih =>
      have here := length_placesOf first slots
      rw [List.zipIdx_cons, List.flatMap_cons, List.length_append, here, ih,
        List.flatten_cons, List.length_append, List.length_cons]
      omega

theorem length_places (decision : Decision) :
    decision.places.length = 2 * decision.size + decision.alternatives.length :=
  length_flatMap_placesOf decision.alternatives 0

theorem occupies_iff {decision : Decision} {types : List TokenType} {config : Config} :
    decision.Occupies types config ↔
      ∃ slots, decision.alternatives[config.alternative]? = some slots ∧
        Stands slots types config.position config.looping := by
  constructor
  · intro ⟨within, stands⟩
    exact ⟨_, listed_slots within, stands⟩
  · intro ⟨slots, listed, stands⟩
    rw [← slots_of_listed listed] at stands
    exact ⟨(List.getElem?_eq_some_iff.mp listed).1, stands⟩

theorem mem_placesOf_of_stands {slots : List Slot} {types : List TokenType} {config : Config}
    (stands : Stands slots types config.position config.looping) :
    config ∈ placesOf config.alternative slots := by
  obtain ⟨alternative, position, looping⟩ := config
  unfold placesOf
  rw [List.mem_append]
  cases looping with
  | false =>
      have inside : position < slots.length + 1 := Nat.lt_succ_of_le stands.1
      exact Or.inl (List.mem_map.mpr ⟨position, List.mem_range.mpr inside, rfl⟩)
  | true =>
      obtain ⟨slot, _, _, present, _⟩ := stands
      have inside := (List.getElem?_eq_some_iff.mp present).1
      exact Or.inr (List.mem_map.mpr ⟨position, List.mem_range.mpr inside, rfl⟩)

theorem mem_places_of_occupies {decision : Decision} {types : List TokenType} {config : Config}
    (occupies : decision.Occupies types config) : config ∈ decision.places := by
  obtain ⟨slots, listed, stands⟩ := occupies_iff.mp occupies
  exact List.mem_flatMap.mpr ⟨(slots, config.alternative),
    List.mk_mem_zipIdx_iff_getElem?.mpr listed, mem_placesOf_of_stands stands⟩

/-! ### The run over some types -/

theorem opened?_concat (decision : Decision) (types : List TokenType) (type : TokenType) :
    decision.opened? (types ++ [type]) =
      ((decision.opened? types).bind decision.close?).bind (decision.moveEach? type []) := by
  unfold opened?
  rw [List.foldlM_append]
  simp only [List.foldlM_cons, List.foldlM_nil, Option.bind_eq_bind, Option.pure_def,
    Option.bind_fun_some, Option.bind_assoc]

theorem after?_concat (decision : Decision) (types : List TokenType) (type : TokenType) :
    decision.after? (types ++ [type]) =
      (decision.after? types).bind (fun configs => decision.step? configs type) := by
  unfold after?
  simp only [List.foldlM_append, List.foldlM_cons, List.foldlM_nil, Option.bind_eq_bind,
    Option.pure_def, Option.bind_fun_some, Option.bind_assoc]

/-- The lists after some types are what is opened after them, gone through. -/
theorem after?_eq (decision : Decision) (types : List TokenType) :
    decision.after? types = (decision.opened? types).bind decision.close? := by
  induction types using List.reverseRecOn with
  | nil => exact Option.bind_fun_some _
  | append_singleton types type ih =>
      rw [after?_concat, opened?_concat, ← ih]
      simp only [step?, Option.bind_assoc]

/-- The induction is on the types; what is opened after one more of them are the moves of what was
closed before it. -/
theorem opened?_exact (decision : Decision) (types : List TokenType) :
    ∃ opened configs, decision.opened? types = some opened ∧ opened.Nodup ∧
      decision.close? opened = some configs ∧ Alike configs (decision.after types) := by
  induction types using List.reverseRecOn with
  | nil =>
      obtain ⟨configs, started, alike⟩ := decision.start?_exact
      refine ⟨_, configs, rfl, ?_, started, alike⟩
      exact List.nodup_range.map (fun _ _ same => congrArg Config.alternative same)
  | append_singleton types type ih =>
      obtain ⟨opened, configs, found, _, closed, alike⟩ := ih
      have inRange : decision.InRange (decision.after types) :=
        fun config member => (occupies_of_mem_after member).1
      obtain ⟨next, stepped, nextAlike⟩ := step?_exact (inRange.of_alike alike) alike type
      obtain ⟨moved, moves, nextClosed⟩ := Option.bind_eq_some_iff.mp stepped
      refine ⟨moved, next, ?_, nodup_moveEach? List.nodup_nil moves, nextClosed, ?_⟩
      · rw [opened?_concat, found, Option.bind_some, closed, Option.bind_some, moves]
      · rw [after_concat]
        exact nextAlike

/-- What the list of configurations after some types holds. -/
structure HoldsPlaces (decision : Decision) (types : List TokenType) (configs : List Config) :
    Prop where
  standing : ∀ alternative position, ⟨alternative, position, false⟩ ∈ configs ↔
    ∃ slots, decision.alternatives[alternative]? = some slots ∧ position ≤ slots.length ∧
      Word (slots.take position) types
  looping : ∀ alternative position, ⟨alternative, position, true⟩ ∈ configs ↔
    ∃ slots, decision.alternatives[alternative]? = some slots ∧
      ∃ slot earlier count, slots[position]? = some slot ∧ slot.repetition.loops = true ∧
        Word (slots.take position) earlier ∧
        types = earlier ++ List.replicate (count + 1) slot.type
  distinct : configs.Nodup
  few : configs.length ≤ 2 * decision.size + decision.alternatives.length

theorem holdsPlaces_of_alike {decision : Decision} {types : List TokenType}
    {configs : List Config} (alike : Alike configs (decision.after types))
    (distinct : configs.Nodup) : decision.HoldsPlaces types configs := by
  have occupied (config : Config) : config ∈ configs ↔ decision.Occupies types config := by
    rw [alike, mem_after_iff]
  exact {
    standing := fun alternative position => (occupied _).trans occupies_iff
    looping := fun alternative position => (occupied _).trans occupies_iff
    distinct := distinct
    few := by
      have listed : configs ⊆ decision.places :=
        fun config member => mem_places_of_occupies ((occupied config).mp member)
      rw [← length_places]
      exact (distinct.subperm listed).length_le }

/-- After any types the work lists come to an end without an access that misses.  What they end in
holds exactly the places that the types lead to, each once, and going through the last of them has
taken no more rounds than there are configurations in it. -/
theorem configurations_exact (decision : Decision) (types : List TokenType) :
    ∃ opened configs, decision.opened? types = some opened ∧
      decision.closeWithin? configs.length opened 0 = some configs ∧
      decision.after? types = some configs ∧ decision.HoldsPlaces types configs := by
  obtain ⟨opened, configs, found, distinct, closed, alike⟩ := decision.opened?_exact types
  refine ⟨opened, configs, found, closeWithin?_eq closed (by omega), ?_, ?_⟩
  · rw [after?_eq, found, Option.bind_some, closed]
  · have once : configs.Nodup :=
      closeFrom_induction List.Nodup (fun _ added before => nodup_addNew before added) distinct
        closed
    exact holdsPlaces_of_alike alike once

end LiteralGrammar.Decision
