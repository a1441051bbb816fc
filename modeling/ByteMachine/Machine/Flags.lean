import ByteMachine.Isa.Operation

/-!
# Condition flags

Three flags record facts about the last arithmetic result: *negative* (a
subtraction went below zero), *zero* (the result is zero) and *overflow* (the
result did not fit). As a byte they are the bits 1, 2 and 4. Each operation
sets only the flags it is about and leaves the others as they were.
-/

namespace ByteMachine

/-- The condition flags. -/
structure Flags where
  negative : Bool := false
  zero : Bool := false
  overflow : Bool := false
  deriving DecidableEq, Repr

namespace Flags

def empty : Flags := {}

/-- The flags as a byte: negative is bit 0, zero bit 1, overflow bit 2. -/
def bits (f : Flags) : Nat :=
  (if f.negative then 1 else 0) + (if f.zero then 2 else 0) + (if f.overflow then 4 else 0)

/-- The flags whose bits are set in `n`; other bits are ignored. -/
def ofBits (n : Nat) : Flags :=
  ⟨n.testBit 0, n.testBit 1, n.testBit 2⟩

def get (f : Flags) : ConditionFlag → Bool
  | .negative => f.negative
  | .zero => f.zero
  | .overflow => f.overflow

def set (f : Flags) : ConditionFlag → Bool → Flags
  | .negative, b => { f with negative := b }
  | .zero, b => { f with zero := b }
  | .overflow, b => { f with overflow := b }

@[simp] theorem get_set_self (f : Flags) (c : ConditionFlag) (b : Bool) : (f.set c b).get c = b := by
  cases c <;> rfl

theorem get_set_of_ne (f : Flags) {c d : ConditionFlag} (h : c ≠ d) (b : Bool) :
    (f.set c b).get d = f.get d := by
  cases c <;> cases d <;> simp_all [get, set]

/-- The names of the set flags, in bit order. -/
def names (f : Flags) : List String :=
  (if f.negative then ["NEGATIVE"] else []) ++ (if f.zero then ["ZERO"] else []) ++
    (if f.overflow then ["OVERFLOW"] else [])

/-- The flags as the machine's console prints them. -/
def text (f : Flags) : String :=
  match f.names with
  | [] => "ALUFlags(0x0)"
  | ns => "ALUFlags(" ++ " | ".intercalate ns ++ ")"

end Flags

end ByteMachine
