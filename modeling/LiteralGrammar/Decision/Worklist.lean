/-
Prediction with the lists of configurations that it builds.

A list of configurations grows at its end while it is gone through, by nothing
that it holds already.  An alternative is looked up by its number wherever its
slots are needed, and nothing is predicted where such an access misses.
-/

import LiteralGrammar.Decision.Basic

namespace LiteralGrammar.Decision

/-- Adds at the end what there is to add, unless it is there already. -/
def addNew (configs : List Config) : Option Config → List Config
  | none => configs
  | some config => if config ∈ configs then configs else configs ++ [config]

/-- Where leaving the slot ahead takes a configuration, given the slots of its alternative. -/
def leaveIn? (slots : List Slot) (config : Config) : Option Config :=
  match slots[config.position]? with
  | none => none
  | some slot =>
      if slot.canLeave config.looping then
        some { config with position := config.position + 1, looping := false }
      else none

/-- Where a token takes a configuration, given the slots of its alternative. -/
def moveIn? (slots : List Slot) (type : TokenType) (config : Config) : Option Config :=
  match slots[config.position]? with
  | none => none
  | some slot =>
      if slot.type = type then
        if slot.repetition.loops then some { config with looping := true }
        else some { config with position := config.position + 1, looping := false }
      else none

/-- The number of slots in all alternatives. -/
def size (decision : Decision) : Nat :=
  decision.alternatives.flatten.length

/-! ### The work list -/

/-- Slots that a configuration has ahead; each leave takes one away. -/
def remaining (decision : Decision) (config : Config) : Nat :=
  (decision.slots config.alternative).length - config.position

/-- The configurations still to be gone through, and those that they can add. -/
def pending (decision : Decision) : List Config → Nat
  | [] => 0
  | config :: rest => decision.remaining config + 1 + decision.pending rest

theorem pending_append (decision : Decision) (left right : List Config) :
    decision.pending (left ++ right) = decision.pending left + decision.pending right := by
  induction left with
  | nil => exact (Nat.zero_add _).symm
  | cons config rest ih =>
      rw [List.cons_append, pending, pending, ih, Nat.add_assoc _ (decision.pending rest)]

theorem slots_of_listed {decision : Decision} {alternative : Nat} {slots : List Slot}
    (listed : decision.alternatives[alternative]? = some slots) :
    decision.slots alternative = slots := by
  unfold Decision.slots
  rw [listed, Option.getD_some]

theorem remaining_leaveIn {decision : Decision} {slots : List Slot} {config next : Config}
    (listed : decision.alternatives[config.alternative]? = some slots)
    (left : leaveIn? slots config = some next) :
    decision.remaining next < decision.remaining config := by
  unfold leaveIn? at left
  split at left
  · cases left
  · rename_i slot present
    split at left
    · cases left
      have within := (List.getElem?_eq_some_iff.mp present).1
      simp only [remaining, slots_of_listed listed]
      omega
    · cases left

theorem pending_addNew (decision : Decision) (configs : List Config) (config : Config)
    (index : Nat) :
    decision.pending ((addNew configs (some config)).drop index) ≤
      decision.pending (configs.drop index) + (decision.remaining config + 1) := by
  simp only [addNew]
  split
  · exact Nat.le_add_right _ _
  · rw [List.drop_append, pending_append]
    apply Nat.add_le_add_left
    cases index - configs.length with
    | zero => exact Nat.le_refl _
    | succ count =>
        rw [List.drop_succ_cons, List.drop_nil]
        exact Nat.zero_le _

theorem pending_drop {decision : Decision} {configs : List Config} {config : Config}
    {index : Nat} (present : configs[index]? = some config) :
    decision.pending (configs.drop index) =
      decision.remaining config + 1 + decision.pending (configs.drop (index + 1)) := by
  obtain ⟨inside, same⟩ := List.getElem?_eq_some_iff.mp present
  rw [List.drop_eq_getElem_cons inside, same, pending]

/-- Passing a configuration, with what it adds, leaves less to be gone through. -/
theorem pending_pass {decision : Decision} {configs : List Config} {config : Config}
    {index : Nat} {slots : List Slot} (present : configs[index]? = some config)
    (listed : decision.alternatives[config.alternative]? = some slots) :
    decision.pending ((addNew configs (leaveIn? slots config)).drop (index + 1)) <
      decision.pending (configs.drop index) := by
  rw [pending_drop present]
  cases left : leaveIn? slots config with
  | none => exact Nat.lt_add_of_pos_left (Nat.succ_pos _)
  | some next =>
      have shorter := remaining_leaveIn listed left
      have grown := decision.pending_addNew configs next (index + 1)
      omega

/-- Goes through the list from an index on and adds what each configuration leads to without a
token. -/
def closeFrom (decision : Decision) (configs : List Config) (index : Nat) :
    Option (List Config) :=
  match _ : configs[index]? with
  | none => some configs
  | some config =>
      match _ : decision.alternatives[config.alternative]? with
      | none => none
      | some slots =>
          closeFrom decision (addNew configs (leaveIn? slots config)) (index + 1)
termination_by decision.pending (configs.drop index)
decreasing_by
  rename_i present listed
  exact pending_pass present listed

def close? (decision : Decision) (configs : List Config) : Option (List Config) :=
  decision.closeFrom configs 0

/-- Goes through the list in no more than some number of rounds; there is nothing where they do not
suffice. -/
def closeWithin? (decision : Decision) : Nat → List Config → Nat → Option (List Config)
  | 0, configs, index => if configs.length ≤ index then some configs else none
  | rounds + 1, configs, index =>
      match configs[index]? with
      | none => some configs
      | some config =>
          match decision.alternatives[config.alternative]? with
          | none => none
          | some slots =>
              decision.closeWithin? rounds (addNew configs (leaveIn? slots config)) (index + 1)

def start? (decision : Decision) : Option (List Config) :=
  decision.close? ((List.range decision.alternatives.length).map (fun alternative =>
    ⟨alternative, 0, false⟩))

/-! ### More tokens -/

/-- Adds to a list where a token takes each of some configurations. -/
def moveEach? (decision : Decision) (type : TokenType) :
    List Config → List Config → Option (List Config)
  | moved, [] => some moved
  | moved, config :: rest =>
      match decision.alternatives[config.alternative]? with
      | none => none
      | some slots => decision.moveEach? type (addNew moved (moveIn? slots type config)) rest

def step? (decision : Decision) (configs : List Config) (type : TokenType) :
    Option (List Config) :=
  (decision.moveEach? type [] configs).bind decision.close?

/-- The list that is gone through after some types, as it is before that. -/
def opened? (decision : Decision) (types : List TokenType) : Option (List Config) :=
  types.foldlM
    (fun opened type => (decision.close? opened).bind (decision.moveEach? type []))
    ((List.range decision.alternatives.length).map (fun alternative => ⟨alternative, 0, false⟩))

/-- The configurations after some types, in the order in which they are listed. -/
def after? (decision : Decision) (types : List TokenType) : Option (List Config) := do
  let configs ← decision.start?
  types.foldlM decision.step? configs

/-- The configurations that are at the end of their alternatives. -/
def complete? (decision : Decision) : List Config → Option (List Config)
  | [] => some []
  | config :: rest =>
      match decision.alternatives[config.alternative]? with
      | none => none
      | some slots =>
          (decision.complete? rest).map (fun later =>
            if config.position = slots.length then config :: later else later)

/-! ### Prediction -/

def predictFrom? (decision : Decision) (configs : List Config) (last : Token) :
    List Token → Option (Except Token Nat)
  | [] =>
      match lowest? configs with
      | some alternative => some (.ok alternative)
      | none => some (.error last)
  | token :: rest =>
      match sole? configs with
      | some alternative => some (.ok alternative)
      | none => do
          let next ← decision.step? configs token.type
          if next.isEmpty then
            let complete ← decision.complete? configs
            match lowest? complete with
            | some alternative => some (.ok alternative)
            | none => some (.error token)
          else decision.predictFrom? next token rest

def predict? (decision : Decision) (tokens : List Token) : Option (Except Token Nat) := do
  let configs ← decision.start?
  decision.predictFrom? configs (Token.endOfInput Position.start) tokens

end LiteralGrammar.Decision
