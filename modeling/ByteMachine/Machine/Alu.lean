import ByteMachine.Machine.Flags

/-!
# Arithmetic and logic

Every operation works on bytes and updates the flags it is about:

* addition and multiplication set *overflow* when the exact result is above
  255 and keep the low byte; their wide forms keep the low byte as the value
  and hand the high byte on as a carry, and set *overflow* only above
  `255 * 255`, which a byte sum or product never exceeds;
* subtraction sets *negative* when the subtrahend is larger, and wraps;
* the remainder by zero is no result at all, and leaves the flags alone;
* shifts by eight or more give zero;
* every operation that yields a value sets *zero* by that value.
-/

namespace ByteMachine

/-- The result of an arithmetic operation: a byte, and for the wide operations
the high byte of the exact result. -/
structure AluOutput where
  value : UInt8
  carried : Option UInt8
  deriving DecidableEq, Repr

namespace Alu

/-- Yields `v`, setting the zero flag by it. -/
def zeroBy (v : UInt8) (f : Flags) : UInt8 × Flags :=
  (v, f.set .zero (v == 0))

/-- Yields the low byte of `raw`, setting overflow when `raw` is not a byte. -/
def overflowBy (raw : Nat) (f : Flags) : UInt8 × Flags :=
  zeroBy raw.toUInt8 (f.set .overflow (255 < raw))

/-- Yields the low and high bytes of `raw`, setting overflow above `255 * 255`. -/
def wideBy (raw : Nat) (f : Flags) : AluOutput × Flags :=
  let (v, f') := zeroBy raw.toUInt8 (f.set .overflow (65025 < raw))
  (⟨v, some (raw / 256).toUInt8⟩, f')

/-- `a` shifted left by `b` places, zero for eight places or more. -/
def shiftLeft (a b : UInt8) : UInt8 :=
  if b.toNat < 8 then (a.toNat * Nat.pow 2 b.toNat).toUInt8 else 0

/-- `a` shifted right by `b` places, zero for eight places or more. -/
def shiftRight (a b : UInt8) : UInt8 :=
  if b.toNat < 8 then (a.toNat / Nat.pow 2 b.toNat).toUInt8 else 0

/-- A plain result byte, setting only the zero flag. -/
def plain (v : UInt8) (f : Flags) : Option AluOutput × Flags :=
  let (v, f') := zeroBy v f
  (some ⟨v, none⟩, f')

/-- The result of `op` on `a` and `b`, `none` for a remainder by zero, with the
flags after the operation; a remainder by zero leaves them as they were. -/
def compute (op : AluOp) (a b : UInt8) (f : Flags) : Option AluOutput × Flags :=
  match op with
  | .add => let (v, f') := overflowBy (a.toNat + b.toNat) f; (some ⟨v, none⟩, f')
  | .addWithOverflow => let (o, f') := wideBy (a.toNat + b.toNat) f; (some o, f')
  | .sub => plain (a - b) (f.set .negative (a < b))
  | .mul => let (v, f') := overflowBy (a.toNat * b.toNat) f; (some ⟨v, none⟩, f')
  | .mulWithOverflow => let (o, f') := wideBy (a.toNat * b.toNat) f; (some o, f')
  | .mod => if b = 0 then (none, f) else plain (a % b) f
  | .shl => plain (shiftLeft a b) f
  | .shr => plain (shiftRight a b) f
  | .min => plain (if a ≤ b then a else b) f
  | .max => plain (if a ≤ b then b else a) f
  | .and => plain (a &&& b) f
  | .or => plain (a ||| b) f
  | .nand => plain (~~~(a &&& b)) f
  | .nor => plain (~~~(a ||| b)) f
  | .xor => plain (a ^^^ b) f

def complement (a : UInt8) (f : Flags) : UInt8 × Flags :=
  zeroBy (~~~a) f

/-- `a + 1`, setting overflow when it wraps to zero. -/
def increment (a : UInt8) (f : Flags) : UInt8 × Flags :=
  overflowBy (a.toNat + 1) f

/-- `a - 1`, setting negative when it wraps from zero. -/
def decrement (a : UInt8) (f : Flags) : UInt8 × Flags :=
  zeroBy (a - 1) (f.set .negative (a == 0))

end Alu

end ByteMachine
