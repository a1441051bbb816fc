import ByteMachine.Machine.Execute

/-!
# What one operation changes

Carrying out an operation touches few parts of the machine. It never changes
the ROM, the halt flag, the last instruction or the counter, except that a
jump that is taken moves the counter to its target. It writes at most one
RAM cell and only the registers and flags its kind is about.

An operation fails in two ways only: a jump to a target outside ROM, and a
remainder by a register holding zero. Neither writes anything first, so a
failing operation leaves the machine exactly as it was.
-/
namespace ByteMachine

/-! ## How an operation ends -/

namespace Machine

/-- Only a halt instruction ends by halting. -/
theorem execute_eq_halted_iff (m : Machine) (op : Operation) :
    (m.execute op).2 = .ok .halted ↔ op = .halt := by
  fun_cases execute m op <;> simp +zetaDelta [next, jump] <;> split <;> simp

end Machine

/-! ## The flags an arithmetic operation writes -/

namespace AluOp

/-- The flags an arithmetic operation may change. -/
def flagsWritten : AluOp → List ConditionFlag
  | add | mul | addWithOverflow | mulWithOverflow => [.zero, .overflow]
  | sub => [.negative, .zero]
  | _ => [.zero]

/-- The wide operations hand the high byte of their exact result on as a carry. -/
def isWide : AluOp → Bool
  | addWithOverflow | mulWithOverflow => true
  | _ => false

/-- The carry of a wide operation on `a` and `b`: the high byte of the exact result. -/
def carry (op : AluOp) (a b : UInt8) : Option UInt8 :=
  match op with
  | addWithOverflow => some ((a.toNat + b.toNat) / 256).toUInt8
  | mulWithOverflow => some ((a.toNat * b.toNat) / 256).toUInt8
  | _ => none

end AluOp

namespace Alu

/-- An arithmetic operation changes only the flags it is about. -/
theorem get_compute_of_not_mem (op : AluOp) (a b : UInt8) (f : Flags) (c : ConditionFlag)
    (h : c ∉ op.flagsWritten) : (compute op a b f).2.get c = f.get c := by
  -- the remainder by zero is the one case that leaves every flag alone
  by_cases hz : op = .mod ∧ b = 0
  · obtain ⟨rfl, rfl⟩ := hz
    simp [compute]
  · cases op <;> cases c <;> simp_all [AluOp.flagsWritten, compute, plain, wideBy, overflowBy,
      zeroBy, Flags.get, Flags.set]

/-- Only a remainder by zero has no result, and it leaves the flags alone. -/
theorem compute_eq_none_iff (op : AluOp) (a b : UInt8) (f : Flags) :
    (compute op a b f).1 = none ↔ op = .mod ∧ b = 0 := by
  cases op <;> by_cases hb : b = 0 <;> simp [compute, plain, hb]

theorem compute_snd_of_none {op : AluOp} {a b : UInt8} {f : Flags}
    (h : (compute op a b f).1 = none) : (compute op a b f).2 = f := by
  obtain ⟨rfl, rfl⟩ := (compute_eq_none_iff op a b f).1 h
  simp [compute]

/-- The carry an operation hands on is the high byte of its exact result. -/
theorem carried_compute {op : AluOp} {a b : UInt8} {f : Flags} {out : AluOutput}
    (h : (compute op a b f).1 = some out) : out.carried = op.carry a b := by
  cases op <;> by_cases hb : b = 0 <;> simp_all [compute, plain, wideBy, AluOp.carry] <;>
    (subst h; rfl)

/-- The wide operations, and only they, hand on a carry. -/
theorem carried_isSome_compute {op : AluOp} {a b : UInt8} {f : Flags} {out : AluOutput}
    (h : (compute op a b f).1 = some out) : out.carried.isSome = op.isWide := by
  rw [carried_compute h]
  cases op <;> rfl

/-- A byte sum or product never exceeds `255 * 255`, so the wide operations always
clear the overflow flag. -/
theorem overflow_compute_of_isWide {op : AluOp} (a b : UInt8) (f : Flags) (h : op.isWide) :
    (compute op a b f).2.get .overflow = false := by
  have ha : a.toNat ≤ 255 := Nat.le_of_lt_succ a.toNat_lt
  have hb : b.toNat ≤ 255 := Nat.le_of_lt_succ b.toNat_lt
  cases op <;> simp_all [AluOp.isWide, compute, wideBy, zeroBy, Flags.get, Flags.set]
  · omega
  · exact Nat.mul_le_mul ha hb

end Alu

namespace Operation

/-- Whether an operation may write register `r`. -/
def Writes : Operation → Register → Prop
  | resetState, _ => True
  | immediate _ dst, r | copy _ dst, r | not _ dst, r => r = dst
  | ramLoad _ dst, r | ramLoadIndirect _ dst, r | sevenSegment _ dst, r => r = dst
  | clear x, r | increment x, r | decrement x, r => r = x
  | alu op _ _ dst, r => r = dst ∨ (op.isWide ∧ r = Register.overflow)
  | push _, r => r = Register.stack
  | pop dst, r => r = Register.stack ∨ r = dst
  | _, _ => False

/-- The flags an operation may change. -/
def flagsWritten : Operation → List ConditionFlag
  | resetState | clearFlags none => [.negative, .zero, .overflow]
  | clearFlags (some f) => [f]
  | alu op _ _ _ => op.flagsWritten
  | not _ _ => [.zero]
  | increment _ => [.zero, .overflow]
  | decrement _ => [.negative, .zero]
  | _ => []

/-- The flags an operation always clears. -/
def flagsCleared : Operation → List ConditionFlag
  | resetState | clearFlags none => [.negative, .zero, .overflow]
  | clearFlags (some f) => [f]
  | alu op _ _ _ => if op.isWide then [.overflow] else []
  | _ => []

/-- The RAM position an operation stores at on machine `m`, and the byte it stores. -/
def store? (m : Machine) : Operation → Option (Nat × UInt8)
  | ramSave src pos => some (pos.toNat, m.reg src)
  | ramSaveIndirect src dst => some ((m.reg dst).toNat, m.reg src)
  | push src => some ((m.reg Register.stack).toNat, m.reg src)
  | _ => none

/-- Where an operation on machine `m` jumps, when it jumps. -/
def target? (m : Machine) : Operation → Option Nat
  | jump t | jumpIfFlag _ _ t | jumpIfCompare _ _ _ t => some t
  | jumpRegister r => some ((m.reg r).toNat % romSize)
  | _ => none

/-- The carry an operation on machine `m` hands on to `OVFL`. -/
def carry? (m : Machine) : Operation → Option UInt8
  | alu op a b _ => op.carry (m.reg a) (m.reg b)
  | _ => none

/-- Every target the operation names lies in ROM. -/
def TargetsInRom : Operation → Prop
  | jump t | jumpIfFlag _ _ t | jumpIfCompare _ _ _ t => t < romSize
  | _ => True

/-- Every RAM position an operation stores at is a byte, and so inside RAM. -/
theorem store?_fst_lt {m : Machine} {op : Operation} {p : Nat} {v : UInt8}
    (h : op.store? m = some (p, v)) : p < ramSize := by
  cases op <;> simp only [store?, Option.some.injEq, Prod.mk.injEq, reduceCtorEq] at h <;>
    (rw [← h.1]; exact UInt8.toNat_lt _)

section WithBusy

variable (m : Machine) (op : Operation) (b : Bool)

@[simp] theorem store?_with_busy : op.store? { m with busy := b } = op.store? m := by
  cases op <;> rfl

@[simp] theorem target?_with_busy : op.target? { m with busy := b } = op.target? m := by
  cases op <;> rfl

@[simp] theorem carry?_with_busy : op.carry? { m with busy := b } = op.carry? m := by
  cases op <;> rfl

end WithBusy

end Operation

namespace Machine

/-! ## Registers and resets -/

@[simp] theorem reg_setReg (m : Machine) (r s : Register) (v : UInt8) :
    (m.setReg r v).reg s = if s = r then v else m.reg s := by
  by_cases h : s = r
  · subst h
    simp [setReg, reg]
  · simp [setReg, reg, h, RegisterFile.get_set_of_ne _ (Ne.symm h)]

@[simp] theorem setReg_rom (m : Machine) (r : Register) (v : UInt8) :
    (m.setReg r v).rom = m.rom := rfl

@[simp] theorem setReg_ram (m : Machine) (r : Register) (v : UInt8) :
    (m.setReg r v).ram = m.ram := rfl

@[simp] theorem setReg_flags (m : Machine) (r : Register) (v : UInt8) :
    (m.setReg r v).flags = m.flags := rfl

@[simp] theorem setReg_pc (m : Machine) (r : Register) (v : UInt8) :
    (m.setReg r v).pc = m.pc := rfl

@[simp] theorem setReg_halted (m : Machine) (r : Register) (v : UInt8) :
    (m.setReg r v).halted = m.halted := rfl

@[simp] theorem setReg_busy (m : Machine) (r : Register) (v : UInt8) :
    (m.setReg r v).busy = m.busy := rfl

@[simp] theorem setReg_current (m : Machine) (r : Register) (v : UInt8) :
    (m.setReg r v).current = m.current := rfl

@[simp] theorem reg_resetState (m : Machine) (r : Register) : m.resetState.reg r = 0 := by
  simp [resetState, reg]

@[simp] theorem resetState_rom (m : Machine) : m.resetState.rom = m.rom := rfl

@[simp] theorem resetState_ram (m : Machine) : m.resetState.ram = m.ram := rfl

@[simp] theorem resetState_flags (m : Machine) : m.resetState.flags = Flags.empty := rfl

@[simp] theorem resetState_pc (m : Machine) : m.resetState.pc = m.pc := rfl

@[simp] theorem resetState_halted (m : Machine) : m.resetState.halted = m.halted := rfl

@[simp] theorem resetState_busy (m : Machine) : m.resetState.busy = false := rfl

@[simp] theorem resetState_current (m : Machine) : m.resetState.current = m.current := rfl

@[simp] theorem reg_with_flags (m : Machine) (f : Flags) (r : Register) :
    ({ m with flags := f } : Machine).reg r = m.reg r := rfl

@[simp] theorem reg_with_ram (m : Machine) (ram : Memory) (r : Register) :
    ({ m with ram := ram } : Machine).reg r = m.reg r := rfl

@[simp] theorem reg_with_busy (m : Machine) (b : Bool) (r : Register) :
    ({ m with busy := b } : Machine).reg r = m.reg r := rfl

@[simp] theorem reg_with_current (m : Machine) (c : Option Instruction) (r : Register) :
    ({ m with current := c } : Machine).reg r = m.reg r := rfl

/-! ## Jumps -/

@[simp] theorem next_eq (m : Machine) : m.next = (m, .ok .normal) := rfl

theorem jump_eq (m : Machine) (t : Nat) :
    m.jump t = if t < romSize then ({ m with pc := t }, .ok .jumped)
      else (m, .error (.romOutOfBounds t)) := rfl

/-- A jump changes nothing but the counter. -/
theorem jump_fst_eq (m : Machine) (t : Nat) :
    (m.jump t).1 = { m with pc := if t < romSize then t else m.pc } := by
  rw [jump_eq]
  split <;> rfl

@[simp] theorem jump_rom (m : Machine) (t : Nat) : (m.jump t).1.rom = m.rom := by
  rw [jump_fst_eq]

@[simp] theorem jump_ram (m : Machine) (t : Nat) : (m.jump t).1.ram = m.ram := by
  rw [jump_fst_eq]

@[simp] theorem jump_regs (m : Machine) (t : Nat) : (m.jump t).1.regs = m.regs := by
  rw [jump_fst_eq]

@[simp] theorem jump_reg (m : Machine) (t : Nat) (r : Register) :
    (m.jump t).1.reg r = m.reg r := by
  rw [jump_fst_eq]
  rfl

@[simp] theorem jump_flags (m : Machine) (t : Nat) : (m.jump t).1.flags = m.flags := by
  rw [jump_fst_eq]

@[simp] theorem jump_halted (m : Machine) (t : Nat) : (m.jump t).1.halted = m.halted := by
  rw [jump_fst_eq]

@[simp] theorem jump_busy (m : Machine) (t : Nat) : (m.jump t).1.busy = m.busy := by
  rw [jump_fst_eq]

@[simp] theorem jump_current (m : Machine) (t : Nat) : (m.jump t).1.current = m.current := by
  rw [jump_fst_eq]

@[simp] theorem jump_pc (m : Machine) (t : Nat) :
    (m.jump t).1.pc = if t < romSize then t else m.pc := by
  rw [jump_fst_eq]

/-- A jump succeeds exactly when its target lies in ROM. -/
@[simp] theorem jump_snd_eq_ok_iff (m : Machine) (t : Nat) (r : Outcome) :
    (m.jump t).2 = .ok r ↔ t < romSize ∧ r = .jumped := by
  rw [jump_eq]
  split <;> simp [*, eq_comm]

@[simp] theorem jump_snd_eq_error_iff (m : Machine) (t : Nat) (e : Fault) :
    (m.jump t).2 = .error e ↔ romSize ≤ t ∧ e = .romOutOfBounds t := by
  by_cases ht : t < romSize
  · simp only [jump_eq, ht, if_true, reduceCtorEq, false_iff, not_and]
    omega
  · simp [jump_eq, ht, eq_comm]
    omega

@[simp] theorem writeAlu_eq (m : Machine) (dst : Register) (r : UInt8 × Flags) :
    m.writeAlu dst r = { m with flags := r.2 }.setReg dst r.1 := rfl

/-! ## One operation -/

section Execute

variable (m : Machine) (op : Operation)

@[simp] theorem rom_execute : (m.execute op).1.rom = m.rom := by
  cases op <;> simp only [execute, next, jump] <;> (repeat' split) <;> rfl

@[simp] theorem halted_execute : (m.execute op).1.halted = m.halted := by
  cases op <;> simp only [execute, next, jump] <;> (repeat' split) <;> rfl

@[simp] theorem current_execute : (m.execute op).1.current = m.current := by
  cases op <;> simp only [execute, next, jump] <;> (repeat' split) <;> rfl

@[simp] theorem busy_execute : (m.execute op).1.busy = (m.busy && op != .resetState) := by
  fun_cases execute m op <;> simp +zetaDelta

/-- RAM changes only by the one store the operation makes. -/
theorem ram_execute : (m.execute op).1.ram =
    match op.store? m with
    | some (p, v) => m.ram.save p v
    | none => m.ram := by
  fun_cases execute m op <;> simp +zetaDelta [Operation.store?]

/-- Registers that an operation does not write keep their values. -/
theorem reg_execute_of_not_writes (r : Register) (h : ¬ op.Writes r) :
    (m.execute op).1.reg r = m.reg r := by
  fun_cases execute m op
  case case16 o a b dst fl m₁ out m₂ c hc hcomp =>
    have hwide : o.isWide = true := by
      have hout : (Alu.compute o (m.reg a) (m.reg b) m.flags).1 = some out := by rw [hcomp]
      rw [← Alu.carried_isSome_compute hout, hc]
      rfl
    simp only [Operation.Writes, hwide, true_and, not_or] at h
    simp +zetaDelta [h.1, h.2]
  all_goals simp only [Operation.Writes, not_or, not_true_eq_false] at h
  all_goals simp +zetaDelta [h]

/-- Flags that an operation is not about keep their values. -/
theorem get_flags_execute_of_not_mem (c : ConditionFlag) (h : c ∉ op.flagsWritten) :
    (m.execute op).1.flags.get c = m.flags.get c := by
  fun_cases execute m op
  case case15 o a b dst fl _ hcomp | case16 o a b dst fl _ _ _ _ _ hcomp |
      case17 o a b dst fl _ _ _ _ hcomp =>
    have := Alu.get_compute_of_not_mem o (m.reg a) (m.reg b) m.flags c h
    simp +zetaDelta [hcomp] at this ⊢
    exact this
  case case5 f =>
    simp only [Operation.flagsWritten, List.mem_singleton] at h
    exact Flags.get_set_of_ne m.flags (Ne.symm h) false
  all_goals cases c <;> simp_all +zetaDelta [Operation.flagsWritten, Flags.get, Flags.set,
    Alu.complement, Alu.increment, Alu.decrement, Alu.overflowBy, Alu.zeroBy]

/-- The flags an operation clears are clear after it. -/
theorem get_flags_execute_of_mem_cleared (c : ConditionFlag) (h : c ∈ op.flagsCleared) :
    (m.execute op).1.flags.get c = false := by
  fun_cases execute m op
  case case16 o a b dst fl _ _ _ _ _ hcomp | case17 o a b dst fl _ _ _ _ hcomp =>
    by_cases hw : o.isWide = true
    · simp only [Operation.flagsCleared, hw, if_true, List.mem_singleton] at h
      subst h
      have := Alu.overflow_compute_of_isWide (m.reg a) (m.reg b) m.flags hw
      simp +zetaDelta [hcomp] at this ⊢
      exact this
    · simp [Operation.flagsCleared, hw] at h
  case case15 o a b dst fl _ hcomp =>
    have hnone : (Alu.compute o (m.reg a) (m.reg b) m.flags).1 = none := by rw [hcomp]
    obtain ⟨rfl, -⟩ := (Alu.compute_eq_none_iff _ _ _ _).1 hnone
    simp [Operation.flagsCleared, AluOp.isWide] at h
  case case5 f =>
    simp only [Operation.flagsCleared, List.mem_singleton] at h
    subst h
    simp
  all_goals cases c <;> simp_all [Operation.flagsCleared, Flags.get, Flags.empty]

/-- A jump that is taken moves the counter to the operation's target. -/
theorem target?_of_execute_jumped (h : (m.execute op).2 = .ok .jumped) :
    op.target? m = some (m.execute op).1.pc := by
  revert h
  fun_cases execute m op <;> simp +zetaDelta +contextual [Operation.target?]

/-- Every other outcome leaves the counter where it was. -/
theorem pc_execute_of_not_jumped (h : (m.execute op).2 ≠ .ok .jumped) :
    (m.execute op).1.pc = m.pc := by
  revert h
  fun_cases execute m op <;> simp +zetaDelta +contextual [Nat.not_lt_of_le]

/-- A wide operation leaves its carry in `OVFL`, over a destination of `OVFL` too. -/
theorem reg_overflow_execute_of_carry? {c : UInt8} (h : op.carry? m = some c) :
    (m.execute op).1.reg Register.overflow = c := by
  revert h
  fun_cases execute m op
  case case16 o a b dst fl _ out _ c' hc hcomp =>
    have hout : (Alu.compute o (m.reg a) (m.reg b) m.flags).1 = some out := by rw [hcomp]
    rw [Operation.carry?, ← Alu.carried_compute hout, hc, Option.some.injEq]
    rintro rfl
    simp
  case case17 o a b dst fl _ out _ hc hcomp =>
    have hout : (Alu.compute o (m.reg a) (m.reg b) m.flags).1 = some out := by rw [hcomp]
    rw [Operation.carry?, ← Alu.carried_compute hout, hc]
    simp
  case case15 o a b dst fl _ hcomp =>
    have hnone : (Alu.compute o (m.reg a) (m.reg b) m.flags).1 = none := by rw [hcomp]
    obtain ⟨rfl, -⟩ := (Alu.compute_eq_none_iff _ _ _ _).1 hnone
    simp [Operation.carry?, AluOp.carry]
  all_goals simp [Operation.carry?]

/-- `POP` leaves the byte below the stack pointer in its destination, also when the
destination is the stack pointer itself. -/
theorem reg_execute_pop (dst : Register) :
    (m.execute (.pop dst)).1.reg dst =
      m.ram.load (((m.reg Register.stack).toNat + stackSize - 1) % stackSize) := by
  simp [execute]

/-- A failing operation leaves the machine exactly as it was. -/
theorem execute_fst_of_error {e : Fault} (h : (m.execute op).2 = .error e) :
    (m.execute op).1 = m := by
  revert h
  fun_cases execute m op
  case case15 o a b dst fl _ hcomp =>
    have hnone : (Alu.compute o (m.reg a) (m.reg b) m.flags).1 = none := by rw [hcomp]
    have hfl : fl = m.flags := by
      have := Alu.compute_snd_of_none hnone
      rwa [hcomp] at this
    simp +zetaDelta [hfl]
  all_goals simp +zetaDelta +contextual [jump_fst_eq, Nat.not_lt_of_le]

/-- With every target in ROM, the only failing operation is a remainder by a
register holding zero. -/
theorem execute_snd_eq_error_iff (hop : op.TargetsInRom) (e : Fault) :
    (m.execute op).2 = .error e ↔
      ∃ a b dst, op = .alu .mod a b dst ∧ m.reg b = 0 ∧ e = .divisionByZero := by
  revert hop
  fun_cases execute m op
  case case15 o a b dst fl _ hcomp =>
    have hnone : (Alu.compute o (m.reg a) (m.reg b) m.flags).1 = none := by rw [hcomp]
    obtain ⟨rfl, hb⟩ := (Alu.compute_eq_none_iff _ _ _ _).1 hnone
    intro _
    constructor
    · intro he
      exact ⟨a, b, dst, rfl, hb, (Except.error.inj he).symm⟩
    · rintro ⟨_, _, _, _, _, rfl⟩
      rfl
  case case16 o a b dst fl _ out _ _ _ hcomp | case17 o a b dst fl _ out _ _ hcomp =>
    have hsome : (Alu.compute o (m.reg a) (m.reg b) m.flags).1 ≠ none := by simp [hcomp]
    rw [Ne, Alu.compute_eq_none_iff] at hsome
    intro _
    simp +zetaDelta
    exact fun ho hb => absurd ⟨ho, hb⟩ hsome
  case case10 r =>
    -- a register jump reduces its target modulo the ROM size, so it never leaves ROM
    have := Nat.mod_lt (m.reg r).toNat (show 0 < romSize by decide)
    simp
    omega
  all_goals simp +zetaDelta +contextual [Operation.TargetsInRom, Nat.not_le_of_lt]

end Execute

end Machine

end ByteMachine
