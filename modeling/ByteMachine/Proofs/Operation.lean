import ByteMachine.Proofs.Execute

/-!
# From instructions to operations

An instruction's operands are bytes; its operation reads each operand that the
kind declares a register as one. Reading fails exactly at the first such
operand above fourteen, and for no other reason: a ROM operand is a byte and so
always a position inside ROM.

This module also reads off an instruction's kind and operands what executing
it may change: the registers, flags and RAM cell it may write and where it
jumps. These are the instruction-level footprints; each agrees with the
footprint of the instruction's operation.
-/
namespace ByteMachine

namespace Except

variable {ε α β : Type}

/-! Every result of a computation: the forms in which a `do` block is taken apart
when a statement holds of each value it can produce. -/

theorem forall_bind_eq_ok {x : Except ε α} {f : α → Except ε β} {P : β → Prop} :
    (∀ b, x >>= f = .ok b → P b) ↔ ∀ a, x = .ok a → ∀ b, f a = .ok b → P b := by
  cases x <;> simp [bind, Except.bind]

theorem forall_map_eq_ok {x : Except ε α} {f : α → β} {P : β → Prop} :
    (∀ b, f <$> x = .ok b → P b) ↔ ∀ a, x = .ok a → P (f a) := by
  cases x <;> simp [Functor.map, Except.map]

theorem forall_pure_eq_ok {a : α} {P : α → Prop} :
    (∀ b, (pure a : Except ε α) = .ok b → P b) ↔ P a := by
  simp [pure, Except.pure]

end Except

namespace Kind

/-- The flags an instruction of the kind may change. -/
def flagsWritten : Kind → List ConditionFlag
  | .add | .mul | .inc | .ado | .mlo => [.zero, .overflow]
  | .sub | .dec => [.negative, .zero]
  | .mod | .shl | .shr | .min | .max | .and | .or | .nnd | .nor | .xor | .not => [.zero]
  | .clf | .rst => [.negative, .zero, .overflow]
  | .cnf => [.negative]
  | .czf => [.zero]
  | .cof => [.overflow]
  | _ => []

/-- The flags an instruction of the kind always clears. -/
def flagsCleared : Kind → List ConditionFlag
  | .ado | .mlo | .cof => [.overflow]
  | .clf | .rst => [.negative, .zero, .overflow]
  | .cnf => [.negative]
  | .czf => [.zero]
  | _ => []

end Kind

namespace Register

/-- Registers are equal when their indices are. -/
theorem eq_of_index_val {r s : Register} (h : r.index.val = s.index.val) : r = s := by
  cases r
  cases s
  simp only [mk.injEq]
  exact Fin.ext h

end Register

namespace Instruction

/-! ## Register operands -/

theorem reg_of_le {b : UInt8} (h : ¬ 14 < b.toNat) : reg b = .ok ⟨⟨b.toNat, by omega⟩⟩ := by
  simp [reg, Register.ofByte?, Register.ofNat?, show b.toNat < 15 by omega]

theorem reg_of_lt {b : UInt8} (h : 14 < b.toNat) : reg b = .error (.registerOverflow b) := by
  simp [reg, Register.ofByte?, Register.ofNat?, show ¬ b.toNat < 15 by omega]

/-- An operand byte reads as the register of that index. -/
theorem reg_eq_ok_iff {b : UInt8} {r : Register} : reg b = .ok r ↔ r.index.val = b.toNat := by
  by_cases h : 14 < b.toNat
  · simp only [reg_of_lt h, reduceCtorEq, false_iff]
    have := r.index.isLt
    omega
  · simp only [reg_of_le h, Except.ok.injEq]
    constructor
    · rintro rfl
      rfl
    · intro hr
      exact Register.eq_of_index_val hr.symm

theorem ofByte?_eq_some_iff {b : UInt8} {r : Register} :
    Register.ofByte? b = some r ↔ r.index.val = b.toNat := by
  rw [← reg_eq_ok_iff, reg]
  split <;> simp_all

theorem ofByte?_of_index {b : UInt8} {r : Register} (h : r.index.val = b.toNat) :
    Register.ofByte? b = some r :=
  ofByte?_eq_some_iff.2 h

/-! ## Failing to read an operation -/

/-- The first operand byte that the kind reads as a register but that names none. -/
def badRegister? (i : Instruction) : Option UInt8 :=
  ((i.kind.operandKinds.zip i.operands).find? fun p => p.1 == .register && 14 < p.2).map Prod.snd

/-- Reading an operation fails exactly at the first register operand above
fourteen, and reports that operand. -/
theorem operation_eq_error_iff (i : Instruction) (e : DecodeError) :
    i.operation = .error e ↔ ∃ b, i.badRegister? = some b ∧ e = .registerOverflow b := by
  obtain ⟨k, ops, hlen⟩ := i
  obtain _ | ⟨x, _ | ⟨y, _ | ⟨z, _ | ⟨w, ops⟩⟩⟩⟩ := ops
  · cases k <;> simp [Kind.arity, Kind.operandKinds] at hlen <;>
      simp [operation, badRegister?, Kind.operandKinds]
  · by_cases hx : 14 < x.toNat <;> cases k <;> simp [Kind.arity, Kind.operandKinds] at hlen <;>
      simp [operation, badRegister?, Kind.operandKinds, operand, reg_of_lt, reg_of_le, hx,
        UInt8.lt_iff_toNat_lt, bind, Except.bind, pure, Except.pure] <;>
      exact eq_comm
  · by_cases hx : 14 < x.toNat <;> by_cases hy : 14 < y.toNat <;> cases k <;>
      simp [Kind.arity, Kind.operandKinds] at hlen <;>
      simp [operation, badRegister?, Kind.operandKinds, operand, reg_of_lt, reg_of_le, hx, hy,
        UInt8.lt_iff_toNat_lt, bind, Except.bind, pure, Except.pure] <;>
      exact eq_comm
  · by_cases hx : 14 < x.toNat <;> by_cases hy : 14 < y.toNat <;> by_cases hz : 14 < z.toNat <;>
      cases k <;> simp [Kind.arity, Kind.operandKinds] at hlen <;>
      simp [operation, badRegister?, Kind.operandKinds, operand, aluWith, compareWith, reg_of_lt,
        reg_of_le, hx, hy, hz, UInt8.lt_iff_toNat_lt, bind, Except.bind, pure, Except.pure] <;>
      exact eq_comm
  · cases k <;> simp [Kind.arity, Kind.operandKinds] at hlen

/-- An operation can be read exactly when no register operand is above fourteen. -/
theorem operation_isOk_iff (i : Instruction) :
    (∃ op, i.operation = .ok op) ↔ i.badRegister? = none := by
  cases h : i.operation with
  | error e =>
    obtain ⟨b, hb, -⟩ := (operation_eq_error_iff i e).1 h
    simp [hb]
  | ok op =>
    cases hb : i.badRegister? with
    | none => simp
    | some b =>
      have := (operation_eq_error_iff i (.registerOverflow b)).2 ⟨b, hb, rfl⟩
      rw [h] at this
      cases this

/-! ## What an instruction may change -/

/-- Whether an instruction may write register `r`: its destination operand, `OVFL`
for the wide arithmetic, `STCK` for the stack instructions, and every register for
a reset. -/
def WritesRegister (i : Instruction) (r : Register) : Prop :=
  match i.kind with
  | .imm | .cpy | .not | .rld | .rlr | .seg => r.index.val = (i.operand 1).toNat
  | .clr | .inc | .dec => r.index.val = (i.operand 0).toNat
  | .add | .sub | .mul | .mod | .shl | .shr | .min | .max | .and | .or | .nnd | .nor | .xor =>
    r.index.val = (i.operand 2).toNat
  | .ado | .mlo => r.index.val = (i.operand 2).toNat ∨ r = Register.overflow
  | .psh => r = Register.stack
  | .pop => r = Register.stack ∨ r.index.val = (i.operand 0).toNat
  | .rst => True
  | _ => False

/-- The RAM cell an instruction may write on machine `m`: the position operand of
`RSV`, the value of the second register of `RSR`, and the stack pointer for `PSH`. -/
def ramCell? (m : Machine) (i : Instruction) : Option Nat :=
  match i.kind with
  | .rsv => some (i.operand 1).toNat
  | .rsr => (Register.ofByte? (i.operand 1)).map fun r => (m.reg r).toNat
  | .psh => some (m.reg Register.stack).toNat
  | _ => none

/-- Where an instruction on machine `m` jumps when it jumps: its ROM operand, or
for `JMR` the value of its register. -/
def jumpTarget? (m : Machine) (i : Instruction) : Option Nat :=
  match i.kind with
  | .jmp | .jnf | .jnn | .jzf | .jnz | .jof | .jno => some (i.operand 0).toNat
  | .eq | .neq | .lt | .lte | .gt | .gte => some (i.operand 2).toNat
  | .jmr => (Register.ofByte? (i.operand 0)).map fun r => (m.reg r).toNat
  | _ => none

/-- The carry a wide instruction on machine `m` hands on to `OVFL`: the high byte of
the exact sum or product of the registers its first two operands name. -/
def carry? (m : Machine) (i : Instruction) : Option UInt8 :=
  match i.kind, Register.ofByte? (i.operand 0), Register.ofByte? (i.operand 1) with
  | .ado, some a, some b => some (((m.reg a).toNat + (m.reg b).toNat) / 256).toUInt8
  | .mlo, some a, some b => some (((m.reg a).toNat * (m.reg b).toNat) / 256).toUInt8
  | _, _, _ => none

theorem toNat_lt_256 (b : UInt8) : b.toNat < 256 := b.toNat_lt

theorem toNat_mod_romSize (b : UInt8) : b.toNat % romSize = b.toNat :=
  Nat.mod_eq_of_lt b.toNat_lt

section Footprint

variable {i : Instruction}

/-- Every jump target of an operation read from an instruction lies in ROM. -/
theorem targetsInRom_of_operation : ∀ op, i.operation = .ok op → op.TargetsInRom := by
  obtain ⟨k, ops, hlen⟩ := i
  cases k <;> simp [operation, aluWith, compareWith, Except.forall_bind_eq_ok,
    Except.forall_map_eq_ok, toNat_lt_256,
    Operation.TargetsInRom, romSize]

theorem writesRegister_of_operation {r : Register} :
    ∀ op, i.operation = .ok op → op.Writes r → i.WritesRegister r := by
  obtain ⟨k, ops, hlen⟩ := i
  cases k <;> simp +contextual [operation, aluWith, compareWith, Except.forall_bind_eq_ok,
    Except.forall_map_eq_ok,
    Operation.Writes, WritesRegister, reg_eq_ok_iff, AluOp.isWide, or_imp]

theorem mem_flagsWritten_of_operation {c : ConditionFlag} :
    ∀ op, i.operation = .ok op → c ∈ op.flagsWritten → c ∈ i.kind.flagsWritten := by
  obtain ⟨k, ops, hlen⟩ := i
  cases k <;> simp +contextual [operation, aluWith, compareWith, Except.forall_bind_eq_ok,
    Except.forall_map_eq_ok,
    Operation.flagsWritten, Kind.flagsWritten, AluOp.flagsWritten]

theorem mem_flagsCleared_of_operation {c : ConditionFlag} :
    ∀ op, i.operation = .ok op → c ∈ i.kind.flagsCleared → c ∈ op.flagsCleared := by
  obtain ⟨k, ops, hlen⟩ := i
  cases k <;> simp +contextual [operation, aluWith, compareWith, Except.forall_bind_eq_ok,
    Except.forall_map_eq_ok,
    Operation.flagsCleared, Kind.flagsCleared, AluOp.isWide]

theorem store?_of_operation (m : Machine) :
    ∀ op, i.operation = .ok op → (op.store? m).map Prod.fst = i.ramCell? m := by
  obtain ⟨k, ops, hlen⟩ := i
  cases k <;> simp +contextual [operation, aluWith, compareWith, Except.forall_bind_eq_ok,
    Except.forall_map_eq_ok,
    Operation.store?, ramCell?, reg_eq_ok_iff]
  case rsr =>
    intro _ _ r hr
    simp [ofByte?_of_index hr]

theorem target?_of_operation (m : Machine) :
    ∀ op, i.operation = .ok op → op.target? m = i.jumpTarget? m := by
  obtain ⟨k, ops, hlen⟩ := i
  cases k <;> simp +contextual [operation, aluWith, compareWith, Except.forall_bind_eq_ok,
    Except.forall_map_eq_ok,
    Operation.target?, jumpTarget?, reg_eq_ok_iff, toNat_mod_romSize]
  case jmr =>
    intro r hr
    simp [ofByte?_of_index hr]

theorem eq_halt_of_operation : ∀ op, i.operation = .ok op → (op = .halt ↔ i.kind = .hlt) := by
  obtain ⟨k, ops, hlen⟩ := i
  cases k <;> simp [operation, aluWith, compareWith, Except.forall_bind_eq_ok,
    Except.forall_map_eq_ok]

theorem carry?_of_operation (m : Machine) :
    ∀ op, i.operation = .ok op → op.carry? m = i.carry? m := by
  obtain ⟨k, ops, hlen⟩ := i
  cases k <;> simp +contextual [operation, aluWith, compareWith, Except.forall_bind_eq_ok,
    Except.forall_map_eq_ok,
    Operation.carry?, carry?, AluOp.carry, reg_eq_ok_iff]
  case ado | mlo =>
    intro a ha b hb _ _
    simp [ofByte?_of_index ha, ofByte?_of_index hb]

/-- `POP` pops into the register its operand names. -/
theorem eq_pop_of_operation (hk : i.kind = .pop) {d : Register}
    (hd : d.index.val = (i.operand 0).toNat) : ∀ op, i.operation = .ok op → op = .pop d := by
  obtain ⟨k, ops, hlen⟩ := i
  simp only at hk
  subst hk
  simp only [operation, Except.forall_bind_eq_ok, Except.forall_pure_eq_ok, reg_eq_ok_iff]
  intro r hr
  rw [Register.eq_of_index_val (hr.trans hd.symm)]

/-- The operation of an instruction is a remainder by a register holding zero
exactly when the instruction is `MOD` and the register its second operand names
holds zero. -/
theorem alu_mod_of_operation (m : Machine) : ∀ op, i.operation = .ok op →
    ((∃ a b dst, op = .alu .mod a b dst ∧ m.reg b = 0) ↔
      i.kind = .mod ∧ ∃ r : Register, r.index.val = (i.operand 1).toNat ∧ m.reg r = 0) := by
  obtain ⟨k, ops, hlen⟩ := i
  cases k
  case mod =>
    simp only [operation, aluWith, Except.forall_bind_eq_ok, Except.forall_pure_eq_ok,
      reg_eq_ok_iff, true_and]
    intro a _ b hb d _
    constructor
    · rintro ⟨a', b', d', he, hz⟩
      simp only [Operation.alu.injEq, true_and] at he
      exact ⟨b, hb, he.2.1 ▸ hz⟩
    · rintro ⟨r, hr, hz⟩
      have : r = b := Register.eq_of_index_val (hr.trans hb.symm)
      exact ⟨a, b, d, rfl, this ▸ hz⟩
  all_goals simp [operation, aluWith, compareWith, Except.forall_bind_eq_ok,
    Except.forall_map_eq_ok]

end Footprint

end Instruction

end ByteMachine
