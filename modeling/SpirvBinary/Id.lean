import SpirvBinary.Word

/-!
# Ids

Instructions refer to each other by ids.  A module under construction takes its
ids from a supply that counts upwards from one, so that the last id handed out
also gives the bound the module's header has to state.
-/

namespace SpirvBinary

/-- The number by which instructions refer to a result. -/
structure Id where
  /-- The id as an operand word. -/
  word : Word
  deriving DecidableEq, Repr, Inhabited

/-- The text of an id: its number after a percent sign. -/
def Id.text (id : Id) : String := "%" ++ Nat.repr id.word.toNat

/-- The id with the given number.  Numbers from `4294967296` on start over at zero. -/
def Id.ofNat (n : Nat) : Id := ⟨UInt32.ofNat n⟩

/-- A supply of ids, which remembers how many were handed out. -/
structure IdSupply where
  /-- The number of ids handed out. -/
  count : Nat := 0
  deriving DecidableEq, Repr, Inhabited

namespace IdSupply

/-- The last id handed out, zero at the start. -/
def last (supply : IdSupply) : Word := UInt32.ofNat supply.count

/-- The id that is handed out next. -/
def next (supply : IdSupply) : Id := Id.ofNat (supply.count + 1)

/-- The supply after its next id has been handed out. -/
def advance (supply : IdSupply) : IdSupply := ⟨supply.count + 1⟩

/-- The supply that starts over. -/
def reset (_supply : IdSupply) : IdSupply := {}

/-- The bound of a module that uses the ids handed out: one more than the `last`. -/
def bound (supply : IdSupply) : Word := supply.last + 1

@[simp] theorem count_advance (supply : IdSupply) : supply.advance.count = supply.count + 1 := rfl

@[simp] theorem last_advance (supply : IdSupply) : supply.advance.last = supply.last + 1 := by
  simp [last, UInt32.ofNat_add]

@[simp] theorem word_next (supply : IdSupply) : supply.next.word = supply.last + 1 := by
  simp [next, Id.ofNat, last, UInt32.ofNat_add]

end IdSupply

end SpirvBinary
