import ByteMachine.Isa.Kind
import ByteMachine.Text.Bytes

/-!
# Instructions

An instruction is a kind together with exactly as many operand bytes as the
kind takes. In memory it is the opcode byte followed by the operands; decoding
reads that back from any position of a code image, with operand bytes past
the end of the image read as zero. A decoding error met by the machine becomes
one of its faults.
-/

namespace ByteMachine

/-- Why a byte sequence, or an instruction's operands, could not be decoded. -/
inductive DecodeError where
  | unknownOpcode (opcode : UInt8)
  | registerOverflow (index : UInt8)
  | romOutOfBounds (position : Nat)
  deriving DecidableEq, Repr

namespace DecodeError

def message : DecodeError → String
  | unknownOpcode b => "Unknown opcode " ++ Text.hexByte b
  | registerOverflow b => "Register " ++ toString b.toNat ++ " greater than 14"
  | romOutOfBounds p => "Position " ++ toString p ++ " outside of ROM (max size 256)"

end DecodeError

/-- An instruction: a kind and its operand bytes, one per operand of the kind. -/
structure Instruction where
  kind : Kind
  operands : List UInt8
  length_operands : operands.length = kind.arity
  deriving DecidableEq, Repr

namespace Instruction

/-- Fits `ops` to `n` bytes: extra bytes are dropped, missing ones are zero. -/
def fit (n : Nat) (ops : List UInt8) : List UInt8 :=
  ops.take n ++ List.replicate (n - ops.length) 0

theorem length_fit (n : Nat) (ops : List UInt8) : (fit n ops).length = n := by
  simp only [fit, List.length_append, List.length_take, List.length_replicate]
  omega

theorem fit_of_length_eq {n : Nat} {ops : List UInt8} (h : ops.length = n) : fit n ops = ops := by
  subst h
  simp [fit]

/-- The instruction of kind `k` with the operand bytes `ops`, fitted to the kind. -/
def withOperands (k : Kind) (ops : List UInt8) : Instruction :=
  ⟨k, fit k.arity ops, length_fit _ _⟩

/-- Fitting an instruction's own operands gives the instruction back. -/
@[simp] theorem withOperands_operands (i : Instruction) : withOperands i.kind i.operands = i := by
  simp [withOperands, fit_of_length_eq i.length_operands]

/-- The instruction of kind `k` with all operands zero. -/
def new (k : Kind) : Instruction :=
  withOperands k []

def width (i : Instruction) : Nat :=
  i.kind.width

/-- The instruction's bytes: the opcode, then the operands. -/
def encode (i : Instruction) : List UInt8 :=
  i.kind.opcode :: i.operands

/-- How an instruction is written in listings: the mnemonic, then each operand
as two hexadecimal digits. -/
def text (i : Instruction) : String :=
  i.operands.foldl (fun s b => s ++ " " ++ Text.hexByte b) i.kind.mnemonic

/-- Decodes the instruction that starts at `pos` in `code`. -/
def decodeAt (code : Array UInt8) (pos : Nat) : Except DecodeError Instruction :=
  match code[pos]? with
  | none => .error (.romOutOfBounds pos)
  | some op =>
    match Kind.ofOpcode? op with
    | none => .error (.unknownOpcode op)
    | some k =>
      .ok (withOperands k ((List.range k.arity).map fun j => code[pos + 1 + j]?.getD 0))

end Instruction

end ByteMachine

/-!
## Machine faults

The ways a machine step can fail. A fault leaves the machine as it was: no
register, flag, memory cell or counter changes.
-/

namespace ByteMachine

/-- Why the machine could not carry out a step. A RAM fault names the end of the
block that ran past RAM; an unknown opcode comes with the counter it was met at. -/
inductive Fault where
  | registerOverflow (index : UInt8)
  | romOutOfBounds (position : Nat)
  | ramOutOfBounds (position : Nat)
  | unknownOpcode (opcode : UInt8) (counter : Nat)
  | divisionByZero
  deriving DecidableEq, Repr

namespace Fault

def message : Fault → String
  | registerOverflow b => "Register " ++ toString b.toNat ++ " greater than 14"
  | romOutOfBounds p => "Position " ++ toString p ++ " outside of ROM (max size 256)"
  | ramOutOfBounds p => "Position " ++ toString p ++ " outside of RAM (max size 256)"
  | unknownOpcode b pc => "Unknown opcode " ++ Text.hexByte b ++ " at counter " ++ toString pc
  | divisionByZero => "Division by zero"

/-- The fault of a decoding error met with the counter at `pc`. -/
def ofDecode (pc : Nat) : DecodeError → Fault
  | .unknownOpcode b => unknownOpcode b pc
  | .registerOverflow b => registerOverflow b
  | .romOutOfBounds p => romOutOfBounds p

end Fault

end ByteMachine
