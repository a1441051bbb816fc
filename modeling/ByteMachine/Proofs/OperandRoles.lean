import ByteMachine.Proofs.Operation

/-!
# Operands by role

Each kind of instruction declares what its operand bytes stand for: a register,
a constant, a position in ROM or a position in RAM. Reading an instruction's
operation reads every operand as its kind declares and places it in the field of
the operation that has that role, in order: the registers in the order of the
register fields, the constant as the value, the ROM position as the jump target
and the RAM position as the RAM position.

`Operation.kind` and `Operation.operands` say this from the side of the
operation: the kind of instruction that carries it out, and its fields in order,
each tagged with its role. The main result, `operation_places_operands_by_role`,
is that an instruction built from a kind and any three operand bytes reads as the
operation of that kind whose fields are its operands read by role, and fails,
only on a register operand above fourteen, exactly when there is one.
-/
namespace ByteMachine

/-- An operand byte read as what it stands for. -/
inductive OperandValue where
  | register (r : Register)
  | immediate (v : UInt8)
  | romAddress (target : Nat)
  | ramAddress (pos : UInt8)
  deriving DecidableEq, Repr

namespace OperandValue

/-- The operand byte a value is read from. -/
def byte : OperandValue → UInt8
  | register r => r.index.val.toUInt8
  | immediate v | ramAddress v => v
  | romAddress t => t.toUInt8

end OperandValue

namespace OperandKind

/-- Reads an operand byte as the operand kind says; a register operand above
fourteen names no register. -/
def read : OperandKind → UInt8 → Except DecodeError OperandValue
  | .register, b => .register <$> Instruction.reg b
  | .immediate, b => .ok (.immediate b)
  | .romAddress, b => .ok (.romAddress b.toNat)
  | .ramAddress, b => .ok (.ramAddress b)

end OperandKind

namespace AluOp

/-- The kind of instruction that carries out an arithmetic operation. -/
def kind : AluOp → Kind
  | add => .add
  | addWithOverflow => .ado
  | sub => .sub
  | mul => .mul
  | mulWithOverflow => .mlo
  | mod => .mod
  | shl => .shl
  | shr => .shr
  | min => .min
  | max => .max
  | and => .and
  | or => .or
  | nand => .nnd
  | nor => .nor
  | xor => .xor

end AluOp

namespace Comparison

/-- The kind of the jump that makes a comparison. -/
def kind : Comparison → Kind
  | eq => .eq
  | neq => .neq
  | lt => .lt
  | lte => .lte
  | gt => .gt
  | gte => .gte

end Comparison

namespace ConditionFlag

/-- The kind of the jump taken when the flag's state is `set`: `JNF`, `JZF` and `JOF`
jump when their flag is set, `JNN`, `JNZ` and `JNO` when it is clear. -/
def jumpKind : ConditionFlag → Bool → Kind
  | negative, true => .jnf
  | negative, false => .jnn
  | zero, true => .jzf
  | zero, false => .jnz
  | overflow, true => .jof
  | overflow, false => .jno

/-- The kind that clears one flag, or all of them for `none`. -/
def clearKind : Option ConditionFlag → Kind
  | none => .clf
  | some negative => .cnf
  | some zero => .czf
  | some overflow => .cof

end ConditionFlag

namespace Operation

/-- The kind of instruction that carries out an operation. -/
def kind : Operation → Kind
  | nop => .nop
  | halt => .hlt
  | resetState => .rst
  | clearFlags f => ConditionFlag.clearKind f
  | immediate .. => .imm
  | copy .. => .cpy
  | clear _ => .clr
  | jump _ => .jmp
  | jumpRegister _ => .jmr
  | jumpIfFlag f s _ => f.jumpKind s
  | jumpIfCompare cmp .. => cmp.kind
  | alu op .. => op.kind
  | not .. => .not
  | increment _ => .inc
  | decrement _ => .dec
  | ramLoad .. => .rld
  | ramSave .. => .rsv
  | ramLoadIndirect .. => .rlr
  | ramSaveIndirect .. => .rsr
  | push _ => .psh
  | pop _ => .pop
  | sevenSegment .. => .seg

/-- An operation's fields in order, each tagged with its role. -/
def operands : Operation → List OperandValue
  | nop | halt | resetState | clearFlags _ => []
  | immediate v dst => [.immediate v, .register dst]
  | copy src dst | not src dst => [.register src, .register dst]
  | ramLoadIndirect src dst | ramSaveIndirect src dst | sevenSegment src dst =>
    [.register src, .register dst]
  | clear r | jumpRegister r | increment r | decrement r | push r | pop r => [.register r]
  | jump t | jumpIfFlag _ _ t => [.romAddress t]
  | jumpIfCompare _ a b t => [.register a, .register b, .romAddress t]
  | alu _ a b dst => [.register a, .register b, .register dst]
  | ramLoad pos dst => [.ramAddress pos, .register dst]
  | ramSave src pos => [.register src, .ramAddress pos]

/-- The instruction that carries out an operation: its kind, with each field written
as the byte it is read from. -/
def toInstruction (op : Operation) : Instruction :=
  .withOperands op.kind (op.operands.map OperandValue.byte)

end Operation

namespace Instruction

/-- The operands of an instruction read, left to right, as its kind declares them;
the first register operand above fourteen stops the reading. -/
def readOperands (i : Instruction) : Except DecodeError (List OperandValue) :=
  (i.kind.operandKinds.zip i.operands).mapM fun p => p.1.read p.2

end Instruction

/-! ## Reading an operation is reading its operands by role -/

namespace Except

variable {ε α β : Type}

theorem ok_eq_pure (a : α) : (.ok a : Except ε α) = pure a := rfl

theorem map_eq_ok_iff {f : α → β} {x : Except ε α} {b : β} :
    f <$> x = .ok b ↔ ∃ a, x = .ok a ∧ f a = b := by
  cases x <;> simp [Functor.map, Except.map]

end Except

namespace Operation

/-- An operation jumps inside ROM exactly when every ROM position among its fields
is inside ROM. -/
theorem targetsInRom_iff_operands (op : Operation) :
    op.TargetsInRom ↔ ∀ t, .romAddress t ∈ op.operands → t < romSize := by
  cases op <;> simp [TargetsInRom, operands]

/-- Writing an operation as an instruction and reading it back gives the operation,
when its jump target, if it has one, is inside ROM. -/
theorem operation_toInstruction {op : Operation} (h : op.TargetsInRom) :
    op.toInstruction.operation = .ok op := by
  have hreg (r : Register) : Instruction.reg r.index.val.toUInt8 = .ok r := by
    rw [Instruction.reg_eq_ok_iff]
    have := r.index.isLt
    simp only [Nat.toUInt8_eq, UInt8.toNat_ofNat']
    omega
  have htarget (t : Nat) (ht : t < romSize) : t.toUInt8.toNat = t := by
    simp only [romSize] at ht
    simp only [Nat.toUInt8_eq, UInt8.toNat_ofNat']
    omega
  cases op with
  | clearFlags f => cases f with
    | none => rfl
    | some f => cases f <;> rfl
  | jumpIfFlag f s t =>
    cases f <;> cases s <;>
      simp [toInstruction, kind, operands, ConditionFlag.jumpKind, Instruction.withOperands,
        Instruction.fit, Kind.arity, Kind.operandKinds, Instruction.operation,
        Instruction.operand, OperandValue.byte, htarget t h]
  | jumpIfCompare cmp a b t =>
    cases cmp <;>
      simp [toInstruction, kind, operands, Comparison.kind, Instruction.withOperands,
        Instruction.fit, Kind.arity, Kind.operandKinds, Instruction.operation,
        Instruction.compareWith, Instruction.operand, OperandValue.byte, hreg, htarget t h,
        Except.ok_eq_pure]
  | alu o a b d =>
    cases o <;>
      simp [toInstruction, kind, operands, AluOp.kind, Instruction.withOperands,
        Instruction.fit, Kind.arity, Kind.operandKinds, Instruction.operation,
        Instruction.aluWith, Instruction.operand, OperandValue.byte, hreg, Except.ok_eq_pure]
  | jump t =>
    simp [toInstruction, kind, operands, Instruction.withOperands, Instruction.fit, Kind.arity,
      Kind.operandKinds, Instruction.operation, Instruction.operand, OperandValue.byte,
      htarget t h]
  | _ =>
    simp [toInstruction, kind, operands, Instruction.withOperands, Instruction.fit, Kind.arity,
      Kind.operandKinds, Instruction.operation, Instruction.operand, OperandValue.byte, hreg,
      Except.ok_eq_pure]

end Operation

namespace Instruction

/-- Reading an instruction's operation and reading its operands by role run the same
register reads in the same order: they fail alike, and when they succeed the operation
has the instruction's kind and the operands as its fields. -/
theorem map_operation (i : Instruction) :
    (fun op => (op.kind, op.operands)) <$> i.operation = (i.kind, ·) <$> i.readOperands := by
  obtain ⟨k, ops, hlen⟩ := i
  obtain _ | ⟨x, _ | ⟨y, _ | ⟨z, _ | ⟨w, ops⟩⟩⟩⟩ := ops <;>
  cases k <;> simp [Kind.arity, Kind.operandKinds] at hlen <;>
    -- both sides become the same chain of register reads ending in `pure`; the kind and
    -- the fields of the operation are computed only then, at its constructor
    simp only [operation, aluWith, compareWith, readOperands, operand, OperandKind.read,
      Kind.operandKinds, List.zip_cons_cons, List.zip_nil_right, List.mapM_cons, List.mapM_nil,
      List.getElem?_cons_zero, List.getElem?_cons_succ, Option.getD_some, Except.ok_eq_pure,
      map_bind, bind_map_left, map_pure, pure_bind, bind_pure_comp, Functor.map_map] <;>
    simp only [Operation.kind, Operation.operands, AluOp.kind, Comparison.kind,
      ConditionFlag.jumpKind, ConditionFlag.clearKind]

/-- An instruction reads as `op` exactly when its kind is the one that carries out `op`
and its operands, read by role, are `op`'s fields. -/
theorem operation_eq_ok_iff (i : Instruction) (op : Operation) :
    i.operation = .ok op ↔ op.kind = i.kind ∧ i.readOperands = .ok op.operands := by
  have hmap := map_operation i
  constructor
  · intro h
    rw [h] at hmap
    obtain ⟨vs, hvs, heq⟩ := Except.map_eq_ok_iff.1 hmap.symm
    simp only [Prod.mk.injEq] at heq
    exact ⟨heq.1.symm, heq.2 ▸ hvs⟩
  · rintro ⟨hk, hr⟩
    rw [hr] at hmap
    obtain ⟨op', hop', heq⟩ := Except.map_eq_ok_iff.1 (hmap.trans rfl)
    simp only [Prod.mk.injEq] at heq
    have hin' : op'.TargetsInRom := targetsInRom_of_operation op' hop'
    have hin : op.TargetsInRom := by
      rw [Operation.targetsInRom_iff_operands, ← heq.2]
      exact (Operation.targetsInRom_iff_operands op').1 hin'
    have hsame : op.toInstruction = op'.toInstruction := by
      simp only [Operation.toInstruction, heq.1, heq.2, hk]
    have hop := Operation.operation_toInstruction hin
    rw [hsame, Operation.operation_toInstruction hin', Except.ok.injEq] at hop
    rw [hop', hop]

/-- Paired with its kind's operand kinds, an instruction built from three bytes has
the first bytes as operands, as many as the kind reads. -/
theorem zip_withOperands (k : Kind) (x y z : UInt8) :
    k.operandKinds.zip (withOperands k [x, y, z]).operands = k.operandKinds.zip [x, y, z] := by
  cases k <;> rfl

/-- The instruction of kind `k` with operand bytes `x`, `y`, `z` reads as an operation
exactly as `k`'s operand kinds say. It fails exactly when some operand the kind reads as
a register is above fourteen, and then names the first such operand; it fails for no
other reason. Otherwise it is the operation that `k` carries out, its fields the operands
read by role in order: registers as the register fields, the constant as the value, the
ROM position as the jump target and the RAM position as the RAM position. -/
theorem operation_places_operands_by_role (k : Kind) (x y z : UInt8) :
    (∀ e, (withOperands k [x, y, z]).operation = .error e ↔
      ∃ b, ((k.operandKinds.zip [x, y, z]).find? fun p => p.1 == .register && 14 < p.2) =
        some (.register, b) ∧ e = .registerOverflow b) ∧
    ∀ op, (withOperands k [x, y, z]).operation = .ok op ↔
      op.kind = k ∧
        (k.operandKinds.zip [x, y, z]).mapM (fun p => p.1.read p.2) = .ok op.operands := by
  have hkind : (withOperands k [x, y, z]).kind = k := rfl
  refine ⟨fun e => ?_, fun op => ?_⟩
  · rw [operation_eq_error_iff, badRegister?, hkind, zip_withOperands]
    constructor
    · rintro ⟨b, hb, rfl⟩
      obtain ⟨p, hp, rfl⟩ := Option.map_eq_some_iff.1 hb
      have hreg : p.1 = .register := by
        have := List.find?_some hp
        simp_all
      exact ⟨p.2, by rw [hp, ← hreg], rfl⟩
    · rintro ⟨b, hb, rfl⟩
      exact ⟨b, by rw [hb]; rfl, rfl⟩
  · rw [operation_eq_ok_iff, readOperands, hkind, zip_withOperands]

/-- `RSV` saves the register of its first operand at the RAM position of its second. -/
example : (withOperands .rsv [3, 200, 0]).operation = .ok (.ramSave ⟨3⟩ 200) := rfl

end Instruction

end ByteMachine
