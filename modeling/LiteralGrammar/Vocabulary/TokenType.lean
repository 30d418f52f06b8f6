/-
Numbers that stand for token types.

Types of a grammar's own tokens start at four; the numbers below are reserved.
The end of the input has the type minus one, and zero is never given to any
token.
-/

namespace LiteralGrammar

structure TokenType where
  raw : Int32
  deriving DecidableEq, Repr

namespace TokenType

def endOfInput : TokenType :=
  { raw := -1 }

/-- The type of a literal that no vocabulary knows. -/
def undefined : TokenType :=
  { raw := 0 }

/-- How many types there are from four on; the last one is the largest number of 32 bits with a
sign. -/
def capacity : Nat :=
  0x7FFFFFFC

def ofIndex (index : Nat) : TokenType :=
  { raw := Int32.ofNat (4 + index) }

/-- The place of a type in the definition order. -/
def index? (type : TokenType) : Option Nat :=
  if 4 ≤ type.raw.toInt then some (type.raw.toInt - 4).toNat else none

def display (type : TokenType) : String :=
  Int.repr type.raw.toInt

def tagged (type : TokenType) : String :=
  "TokenType(" ++ type.display ++ ")"

theorem ofIndex_toInt {index : Nat} (within : index < capacity) :
    (ofIndex index).raw.toInt = 4 + index := by
  unfold capacity at within
  unfold ofIndex
  rw [Int32.toInt_ofNat_of_lt (by omega)]
  omega

theorem index?_ofIndex {index : Nat} (within : index < capacity) :
    (ofIndex index).index? = some index := by
  unfold index?
  rw [ofIndex_toInt within, if_pos (by omega)]
  congr 1
  omega

theorem ofIndex_injective {left right : Nat} (leftWithin : left < capacity)
    (rightWithin : right < capacity) (same : ofIndex left = ofIndex right) : left = right := by
  have indices := congrArg index? same
  rw [index?_ofIndex leftWithin, index?_ofIndex rightWithin] at indices
  exact Option.some.inj indices

theorem index?_endOfInput : endOfInput.index? = none := by
  decide

theorem index?_undefined : undefined.index? = none := by
  decide

end TokenType

end LiteralGrammar
