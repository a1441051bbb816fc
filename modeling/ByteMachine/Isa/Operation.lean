import ByteMachine.Isa.Instruction
import ByteMachine.Isa.Register

/-!
# Operations

An instruction's operand bytes are untyped. Its operation is the same
instruction with every operand read as what it stands for: register operands
become registers, ROM operands become jump targets, constants stay bytes.
Reading fails on the first register operand, left to right, that is not below
fifteen. A ROM operand is a byte and so always lies inside the 256-byte ROM.

Jump targets are natural numbers rather than bytes so that an operation built
directly, not read from an instruction, may name a target outside ROM; the
machine then refuses the jump.
-/

namespace ByteMachine

/-- The condition flags of the machine. -/
inductive ConditionFlag where
  | negative
  | zero
  | overflow
  deriving DecidableEq, Repr

/-- The comparisons a conditional jump can make between two registers. -/
inductive Comparison where
  | eq
  | neq
  | lt
  | lte
  | gt
  | gte
  deriving DecidableEq, Repr

namespace Comparison

/-- Whether `a` and `b` stand in the comparison. -/
def holds : Comparison → UInt8 → UInt8 → Bool
  | eq, a, b => a == b
  | neq, a, b => a != b
  | lt, a, b => a < b
  | lte, a, b => a ≤ b
  | gt, a, b => a > b
  | gte, a, b => a ≥ b

end Comparison

/-- The two-operand arithmetic and logic operations. -/
inductive AluOp where
  | add
  | addWithOverflow
  | sub
  | mul
  | mulWithOverflow
  | mod
  | shl
  | shr
  | min
  | max
  | and
  | or
  | nand
  | nor
  | xor
  deriving DecidableEq, Repr

/-- What an instruction does, with typed operands. `resetState` clears registers and
flags, and `clearFlags none` all flags. `jumpRegister r` jumps to the position `r`
holds; `jumpIfFlag f set` jumps when flag `f` is `set`, and `jumpIfCompare` when its
registers stand in the comparison. The indirect RAM operations take the position
from a register: `ramLoadIndirect` from `src`, `ramSaveIndirect` from `dst`.
`sevenSegment` writes the seven-segment pattern of `src`'s value. -/
inductive Operation where
  | nop
  | halt
  | resetState
  | clearFlags (flag : Option ConditionFlag)
  | immediate (value : UInt8) (dst : Register)
  | copy (src dst : Register)
  | clear (r : Register)
  | jump (target : Nat)
  | jumpRegister (r : Register)
  | jumpIfFlag (flag : ConditionFlag) (set : Bool) (target : Nat)
  | jumpIfCompare (cmp : Comparison) (a b : Register) (target : Nat)
  | alu (op : AluOp) (a b dst : Register)
  | not (src dst : Register)
  | increment (r : Register)
  | decrement (r : Register)
  | ramLoad (pos : UInt8) (dst : Register)
  | ramSave (src : Register) (pos : UInt8)
  | ramLoadIndirect (src dst : Register)
  | ramSaveIndirect (src dst : Register)
  | push (r : Register)
  | pop (r : Register)
  | sevenSegment (src dst : Register)
  deriving DecidableEq, Repr

namespace Instruction

def reg (b : UInt8) : Except DecodeError Register :=
  match Register.ofByte? b with
  | some r => .ok r
  | none => .error (.registerOverflow b)

/-- The `n`-th operand byte, zero when there is none. -/
def operand (i : Instruction) (n : Nat) : UInt8 :=
  i.operands[n]?.getD 0

/-- An arithmetic operation on the registers named by the first three operands. -/
def aluWith (i : Instruction) (op : AluOp) : Except DecodeError Operation :=
  return .alu op (← reg (i.operand 0)) (← reg (i.operand 1)) (← reg (i.operand 2))

/-- A comparing jump on the registers named by the first two operands, to the
position in the third. -/
def compareWith (i : Instruction) (cmp : Comparison) : Except DecodeError Operation :=
  return .jumpIfCompare cmp (← reg (i.operand 0)) (← reg (i.operand 1)) (i.operand 2).toNat

/-- The typed operation of an instruction. Register operands are checked left
to right, and the first one that is not a register is the error. -/
def operation (i : Instruction) : Except DecodeError Operation :=
  let x := i.operand 0
  let y := i.operand 1
  match i.kind with
  | .nop => .ok .nop
  | .hlt => .ok .halt
  | .rst => .ok .resetState
  | .clf => .ok (.clearFlags none)
  | .cnf => .ok (.clearFlags (some .negative))
  | .czf => .ok (.clearFlags (some .zero))
  | .cof => .ok (.clearFlags (some .overflow))
  | .imm => return .immediate x (← reg y)
  | .cpy => return .copy (← reg x) (← reg y)
  | .clr => return .clear (← reg x)
  | .jmp => .ok (.jump x.toNat)
  | .jmr => return .jumpRegister (← reg x)
  | .jnf => .ok (.jumpIfFlag .negative true x.toNat)
  | .jnn => .ok (.jumpIfFlag .negative false x.toNat)
  | .jzf => .ok (.jumpIfFlag .zero true x.toNat)
  | .jnz => .ok (.jumpIfFlag .zero false x.toNat)
  | .jof => .ok (.jumpIfFlag .overflow true x.toNat)
  | .jno => .ok (.jumpIfFlag .overflow false x.toNat)
  | .eq => i.compareWith .eq
  | .neq => i.compareWith .neq
  | .lt => i.compareWith .lt
  | .lte => i.compareWith .lte
  | .gt => i.compareWith .gt
  | .gte => i.compareWith .gte
  | .add => i.aluWith .add
  | .ado => i.aluWith .addWithOverflow
  | .sub => i.aluWith .sub
  | .mul => i.aluWith .mul
  | .mlo => i.aluWith .mulWithOverflow
  | .mod => i.aluWith .mod
  | .shl => i.aluWith .shl
  | .shr => i.aluWith .shr
  | .min => i.aluWith .min
  | .max => i.aluWith .max
  | .nnd => i.aluWith .nand
  | .or => i.aluWith .or
  | .and => i.aluWith .and
  | .nor => i.aluWith .nor
  | .xor => i.aluWith .xor
  | .not => return .not (← reg x) (← reg y)
  | .inc => return .increment (← reg x)
  | .dec => return .decrement (← reg x)
  | .rld => return .ramLoad x (← reg y)
  | .rsv => return .ramSave (← reg x) y
  | .rlr => return .ramLoadIndirect (← reg x) (← reg y)
  | .rsr => return .ramSaveIndirect (← reg x) (← reg y)
  | .psh => return .push (← reg x)
  | .pop => return .pop (← reg x)
  | .seg => return .sevenSegment (← reg x) (← reg y)

end Instruction

end ByteMachine
