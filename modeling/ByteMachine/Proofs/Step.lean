import ByteMachine.Proofs.Operation
import ByteMachine.Proofs.Listing

/-!
# Steps of a reachable machine

A machine is reachable when some sequence of calls of its interface leads to it
from a new machine: loading a program or a source text, resetting, feeding
input, stepping, running, carrying out an operation directly, and writing RAM.
Between calls the busy line is low and RAM keeps its 256 cells.

On such a machine a step fails in four ways only, each read off the ROM and the
registers: the counter is past the ROM, the byte at the counter is no opcode, a
register operand is above fourteen, or the instruction is a remainder by a
register holding zero. A failing step, like a failing operation or load, leaves
the machine exactly as it was, and a failing run stops at the machine its
failing step was handed. A step that succeeds changes only what its instruction
names.
-/
namespace ByteMachine

namespace Memory

theorem size_write_fst (mem : Memory) (start : Nat) (data : List UInt8) :
    (mem.write start data).1.size = mem.size := by
  simp only [write]
  split
  · exact size_writeFrom _ _ _
  · rfl

/-- Saving changes the one cell the position names, modulo the size. -/
theorem getElem?_cells_save (mem : Memory) (p q : Nat) (v : UInt8) :
    (mem.save p v).cells[q]? = if q = p % mem.size then some v else mem.cells[q]? := by
  simp only [save, size, Array.getElem?_setIfInBounds]
  by_cases hq : q = p % mem.cells.size
  · simp [hq, Nat.mod_lt _ mem.size_pos]
  · simp [hq, Ne.symm hq]

end Memory

namespace Machine

/-! ## Calls of the interface and the machines they reach -/

/-- A call of the machine's interface, with its arguments. -/
inductive Call where
  | load (program : List UInt8)
  | loadSource (source : String)
  | reset
  | input (value : Nat)
  | step
  | run (limit : Nat)
  | execute (op : Operation)
  | ramSave (pos : Nat) (value : UInt8)
  | ramWrite (start : Nat) (data : List UInt8)

/-- The machine a call leaves behind, whether it succeeded or failed. -/
def call (m : Machine) : Call → Machine
  | .load program => (m.load program).1
  | .loadSource source => (m.loadSource source).1
  | .reset => m.reset
  | .input v => m.input v
  | .step => m.step.1
  | .run limit => (m.run limit).1
  | .execute op => (m.execute op).1
  | .ramSave pos v => { m with ram := m.ram.save pos v }
  | .ramWrite start data => { m with ram := (m.ram.write start data).1 }

/-- The machines that some sequence of calls leads to from a new machine. -/
inductive Reachable : Machine → Prop
  | new : Reachable Machine.new
  | call {m : Machine} (c : Call) : Reachable m → Reachable (m.call c)

/-- What holds of a machine between calls: the busy line is low and RAM has its
256 cells. -/
structure Idle (m : Machine) : Prop where
  busy_eq_false : m.busy = false
  ram_size : m.ram.size = ramSize

/-! ## Loading -/

theorem load_fst (m : Machine) (program : List UInt8) :
    (m.load program).1 =
      { m with rom := if program.length ≤ romSize then romImage program else m.rom } := by
  unfold load
  split <;> rfl

/-- A program too long for ROM is refused and changes nothing. -/
theorem load_fst_of_error {m : Machine} {program : List UInt8} {e : LoadError}
    (h : (m.load program).2 = .error e) : (m.load program).1 = m := by
  by_cases hc : program.length ≤ romSize
  · simp [load, hc] at h
  · simp [load, hc]

/-- Loading a source text changes the ROM at most. -/
theorem loadSource_fst (m : Machine) (source : String) :
    ∃ rom, (m.loadSource source).1 = { m with rom := rom } := by
  unfold loadSource
  split
  · exact ⟨m.rom, rfl⟩
  · rename_i a _
    split <;> rename_i heq <;>
      exact ⟨_, (congrArg Prod.fst heq).symm.trans (load_fst m a.code)⟩

/-- A source text that does not assemble or does not fit is refused and changes
nothing. -/
theorem loadSource_fst_of_error {m : Machine} {source : String} {e : LoadError}
    (h : (m.loadSource source).2 = .error e) : (m.loadSource source).1 = m := by
  rcases ha : assemble source with e' | a
  · simp [loadSource, ha]
  · rcases hl : m.load a.code with ⟨m', e' | u⟩
    · have : (m.load a.code).2 = .error e' := by rw [hl]
      have hm' := load_fst_of_error this
      rw [hl] at hm'
      simp [loadSource, ha, hl, hm']
    · simp [loadSource, ha, hl] at h

/-! ## Finishing a step -/

section Finish

variable (m : Machine) (w : Nat) (r : Outcome)

@[simp] theorem finish_rom : (m.finish w r).rom = m.rom := by cases r <;> rfl

@[simp] theorem finish_ram : (m.finish w r).ram = m.ram := by cases r <;> rfl

@[simp] theorem finish_regs : (m.finish w r).regs = m.regs := by cases r <;> rfl

@[simp] theorem finish_reg (s : Register) : (m.finish w r).reg s = m.reg s := by
  cases r <;> rfl

@[simp] theorem finish_flags : (m.finish w r).flags = m.flags := by cases r <;> rfl

@[simp] theorem finish_busy : (m.finish w r).busy = m.busy := by cases r <;> rfl

theorem finish_halted : (m.finish w r).halted = (m.halted || r == .halted) := by
  cases r <;> simp [finish]

theorem finish_pc : (m.finish w r).pc = if r = .jumped then m.pc else m.pc + w := by
  cases r <;> simp [finish]

end Finish

/-! ## What a step does -/

section Step

variable {m : Machine}

theorem step_of_halted (hh : m.halted = true) : m.step = (m, .ok .halted) := by
  simp [step, hh]

theorem step_of_decodeAt_error (hh : m.halted = false) {d : DecodeError}
    (hd : Instruction.decodeAt m.rom.toArray m.pc = .error d) :
    m.step = (m, .error (Fault.ofDecode m.pc d)) := by
  rw [step, if_neg (by simp [hh])]
  simp only [hd]

theorem step_of_operation_error (hh : m.halted = false) {i : Instruction} {d : DecodeError}
    (hd : Instruction.decodeAt m.rom.toArray m.pc = .ok i) (ho : i.operation = .error d) :
    m.step = (m, .error (Fault.ofDecode m.pc d)) := by
  rw [step, if_neg (by simp [hh])]
  simp only [hd, ho]

/-- An operation that fails still had the busy line raised; the step lowers it again. -/
theorem step_of_execute_error (hh : m.halted = false) {i : Instruction} {op : Operation}
    {m' : Machine} {e : Fault} (hd : Instruction.decodeAt m.rom.toArray m.pc = .ok i)
    (ho : i.operation = .ok op) (hx : { m with busy := i.kind.isHeavy }.execute op = (m', .error e)) :
    m.step = ({ m' with busy := false }, .error e) := by
  rw [step, if_neg (by simp [hh])]
  simp only [hd, ho, hx]

theorem step_of_execute_ok (hh : m.halted = false) {i : Instruction} {op : Operation}
    {m' : Machine} {r : Outcome} (hd : Instruction.decodeAt m.rom.toArray m.pc = .ok i)
    (ho : i.operation = .ok op) (hx : { m with busy := i.kind.isHeavy }.execute op = (m', .ok r)) :
    m.step = ({ ({ m' with busy := false }).finish i.width r with current := some i }, .ok r) := by
  rw [step, if_neg (by simp [hh])]
  simp only [hd, ho, hx]

/-- What a step of a running machine does: it fails, changing nothing, when the
bytes at the counter do not decode or do not read as an operation; otherwise it
carries out the operation with the busy line raised for a heavy kind, lowers
the line, and when the operation succeeds moves the counter on and records the
instruction. -/
theorem step_cases (hh : m.halted = false) :
    (∃ d, Instruction.decodeAt m.rom.toArray m.pc = .error d ∧
      m.step = (m, .error (Fault.ofDecode m.pc d))) ∨
    (∃ i d, Instruction.decodeAt m.rom.toArray m.pc = .ok i ∧ i.operation = .error d ∧
      m.step = (m, .error (Fault.ofDecode m.pc d))) ∨
    (∃ i op m' e, Instruction.decodeAt m.rom.toArray m.pc = .ok i ∧ i.operation = .ok op ∧
      { m with busy := i.kind.isHeavy }.execute op = (m', .error e) ∧
      m.step = ({ m' with busy := false }, .error e)) ∨
    (∃ i op m' r, Instruction.decodeAt m.rom.toArray m.pc = .ok i ∧ i.operation = .ok op ∧
      { m with busy := i.kind.isHeavy }.execute op = (m', .ok r) ∧
      m.step = ({ ({ m' with busy := false }).finish i.width r with current := some i }, .ok r)) := by
  rcases hd : Instruction.decodeAt m.rom.toArray m.pc with d | i
  · exact .inl ⟨d, rfl, step_of_decodeAt_error hh hd⟩
  rcases ho : i.operation with d | op
  · exact .inr (.inl ⟨i, d, rfl, ho, step_of_operation_error hh hd ho⟩)
  rcases hx : { m with busy := i.kind.isHeavy }.execute op with ⟨m', e | r⟩
  · exact .inr (.inr (.inl ⟨i, op, m', e, rfl, ho, hx, step_of_execute_error hh hd ho hx⟩))
  · exact .inr (.inr (.inr ⟨i, op, m', r, rfl, ho, hx, step_of_execute_ok hh hd ho hx⟩))

/-! The operation of a step, given as the machine and result it returns. -/

variable {m' : Machine} {op : Operation}

theorem rom_of_execute_eq {r : Except Fault Outcome} (hx : m.execute op = (m', r)) :
    m'.rom = m.rom := by
  have := rom_execute m op
  rw [hx] at this
  exact this

theorem halted_of_execute_eq {r : Except Fault Outcome} (hx : m.execute op = (m', r)) :
    m'.halted = m.halted := by
  have := halted_execute m op
  rw [hx] at this
  exact this

theorem pc_of_execute_eq {r : Except Fault Outcome} (hx : m.execute op = (m', r))
    (hr : r ≠ .ok .jumped) : m'.pc = m.pc := by
  have := pc_execute_of_not_jumped m op (by rw [hx]; exact hr)
  rw [hx] at this
  exact this

theorem eq_of_execute_eq_error {e : Fault} (hx : m.execute op = (m', .error e)) : m' = m := by
  have := execute_fst_of_error m op (e := e) (by rw [hx])
  rw [hx] at this
  exact this

end Step

/-! ## Between calls -/

theorem size_ram_execute (m : Machine) (op : Operation) :
    (m.execute op).1.ram.size = m.ram.size := by
  rw [ram_execute]
  split <;> simp

/-- Setting the busy line to the value it has changes nothing. -/
theorem with_busy_of_eq {m : Machine} {b : Bool} (h : m.busy = b) : { m with busy := b } = m := by
  cases m
  cases h
  rfl

section Idle

variable {m : Machine}

theorem idle_new : Machine.new.Idle :=
  ⟨rfl, by simp [Machine.new, Memory.zeros, Memory.size]⟩

theorem idle_execute (hm : m.Idle) (op : Operation) : (m.execute op).1.Idle :=
  ⟨by simp [hm.busy_eq_false], (size_ram_execute m op).trans hm.ram_size⟩

theorem idle_step (hm : m.Idle) : m.step.1.Idle := by
  cases hh : m.halted
  · rcases step_cases hh with ⟨d, -, hs⟩ | ⟨i, d, -, -, hs⟩ | ⟨i, op, m', e, -, -, hx, hs⟩ |
      ⟨i, op, m', r, -, -, hx, hs⟩
    · rw [hs]
      exact hm
    · rw [hs]
      exact hm
    all_goals
      have hsize := size_ram_execute { m with busy := i.kind.isHeavy } op
      rw [hx] at hsize
      rw [hs]
      exact ⟨by simp, by simpa using hsize.trans hm.ram_size⟩
  · rw [step_of_halted hh]
    exact hm

/-- A failing step leaves a machine between calls exactly as it was. -/
theorem step_fst_of_error (hm : m.Idle) {e : Fault} (h : m.step.2 = .error e) : m.step.1 = m := by
  cases hh : m.halted
  · rcases step_cases hh with ⟨d, -, hs⟩ | ⟨i, d, -, -, hs⟩ | ⟨i, op, m', e', -, -, hx, hs⟩ |
      ⟨i, op, m', r, -, -, -, hs⟩
    · rw [hs]
    · rw [hs]
    · -- the failing operation gave back the machine it was handed, so lowering the
      rw [hs, eq_of_execute_eq_error hx]
      exact with_busy_of_eq hm.busy_eq_false
    · rw [hs] at h
      cases h
  · rw [step_of_halted hh] at h
    cases h

theorem idle_runFrom (hm : m.Idle) (count limit : Nat) : (runFrom count limit m).1.Idle := by
  revert hm
  fun_induction runFrom count limit m with
  | case1 => exact id
  | case2 _ _ m _ m' e hs =>
    intro hm
    have := idle_step hm
    rwa [hs] at this
  | case3 _ _ m _ m' _ hs ih =>
    intro hm
    have := idle_step hm
    rw [hs] at this
    exact ih this
  | case4 => exact id

theorem idle_call (hm : m.Idle) : ∀ c, (m.call c).Idle
  | .load program => by
    rw [call, load_fst]
    exact ⟨hm.1, hm.2⟩
  | .loadSource source => by
    obtain ⟨rom, h⟩ := loadSource_fst m source
    rw [call, h]
    exact ⟨hm.1, hm.2⟩
  | .reset => ⟨rfl, hm.2⟩
  | .input _ => ⟨hm.1, hm.2⟩
  | .step => idle_step hm
  | .run limit => idle_runFrom hm 0 limit
  | .execute op => idle_execute hm op
  | .ramSave pos v => ⟨hm.1, by simp [call, hm.2]⟩
  | .ramWrite start data => ⟨hm.1, by simp [call, Memory.size_write_fst, hm.2]⟩

/-- Every reachable machine is between calls. -/
theorem Reachable.idle (h : m.Reachable) : m.Idle := by
  induction h with
  | new => exact idle_new
  | call c _ ih => exact idle_call ih c

end Idle

/-! ## Runs -/

/-- `m` leads to `m'` by steps that all succeed. -/
inductive StepsTo : Machine → Machine → Prop
  | refl (m : Machine) : StepsTo m m
  | step {m m' m'' : Machine} {r : Outcome} : m.step = (m', .ok r) → StepsTo m' m'' → StepsTo m m''

/-- A run that fails stops at the machine its failing step was handed: one that
the run reached by steps that succeeded, and on which the next step fails with
the run's fault, changing nothing. -/
theorem runFrom_of_error {m : Machine} (hm : m.Idle) {count limit : Nat} {e : Fault}
    (h : (runFrom count limit m).2 = .error e) :
    m.StepsTo (runFrom count limit m).1 ∧
      (runFrom count limit m).1.step = ((runFrom count limit m).1, .error e) := by
  revert hm h
  fun_induction runFrom count limit m with
  | case1 => simp
  | case2 _ _ m _ m' e' hs =>
    intro hm h
    have hfst : m' = m := by
      have := step_fst_of_error hm (e := e') (by rw [hs])
      rwa [hs] at this
    obtain rfl : e' = e := Except.error.inj h
    subst hfst
    exact ⟨.refl _, hs⟩
  | case3 _ _ m _ m' _ hs ih =>
    intro hm h
    have hm' : m'.Idle := by
      have := idle_step hm
      rwa [hs] at this
    obtain ⟨hsteps, hfail⟩ := ih hm' h
    exact ⟨.step hs hsteps, hfail⟩
  | case4 => simp

/-! ## The faults of a step -/

/-- The faults a step of machine `m` meets, each with the condition that raises it:
the counter is past the end of ROM; the byte at the counter is no opcode; an
operand the instruction reads as a register is above fourteen, and the fault names
the first such; or the instruction is `MOD` and the register its second operand
names holds zero. -/
inductive StepFault (m : Machine) : Fault → Prop
  | outside (h : romSize ≤ m.pc) : StepFault m (.romOutOfBounds m.pc)
  | unknownOpcode {b : UInt8} (hb : m.rom[m.pc]? = some b) (hk : Kind.ofOpcode? b = none) :
      StepFault m (.unknownOpcode b m.pc)
  | registerOverflow {i : Instruction} {b : UInt8}
      (hi : Instruction.decodeAt m.rom.toArray m.pc = .ok i) (hb : i.badRegister? = some b) :
      StepFault m (.registerOverflow b)
  | divisionByZero {i : Instruction} {r : Register}
      (hi : Instruction.decodeAt m.rom.toArray m.pc = .ok i) (hok : i.badRegister? = none)
      (hk : i.kind = .mod) (hr : r.index.val = (i.operand 1).toNat) (hz : m.reg r = 0) :
      StepFault m .divisionByZero

section Faults

variable {m : Machine}

theorem stepFault_of_step_error (hh : m.halted = false) {e : Fault} (h : m.step.2 = .error e) :
    m.StepFault e := by
  rcases step_cases hh with ⟨d, hd, hs⟩ | ⟨i, d, hd, ho, hs⟩ | ⟨i, op, m', e', hd, ho, hx, hs⟩ |
    ⟨i, op, m', r, -, -, -, hs⟩
  · rw [hs] at h
    obtain rfl := Except.error.inj h
    rcases (Instruction.decodeAt_eq_error_iff _ _ _).1 hd with ⟨hn, rfl⟩ | ⟨b, hb, hk, rfl⟩
    · -- no byte at the counter: the counter is past the ROM
      rw [Vector.getElem?_toArray, Vector.getElem?_eq_none_iff] at hn
      exact .outside hn
    · rw [Vector.getElem?_toArray] at hb
      exact .unknownOpcode hb hk
  · rw [hs] at h
    obtain rfl := Except.error.inj h
    obtain ⟨b, hb, rfl⟩ := (Instruction.operation_eq_error_iff i d).1 ho
    exact .registerOverflow hd hb
  · rw [hs] at h
    obtain rfl := Except.error.inj h
    -- every jump target read from an instruction lies in ROM, so the operation
    -- failed on a remainder by zero
    have hsnd : ({ m with busy := i.kind.isHeavy }.execute op).2 = .error e' := by rw [hx]
    obtain ⟨a, b, dst, rfl, hz, rfl⟩ := (execute_snd_eq_error_iff _ op
      (Instruction.targetsInRom_of_operation op ho) e').1 hsnd
    obtain ⟨hk, r, hr, hr0⟩ :=
      (Instruction.alu_mod_of_operation m _ ho).1 ⟨a, b, dst, rfl, by simpa using hz⟩
    exact .divisionByZero hd ((Instruction.operation_isOk_iff i).1 ⟨_, ho⟩) hk hr hr0
  · rw [hs] at h
    cases h

theorem step_error_of_stepFault (hh : m.halted = false) {e : Fault} (h : m.StepFault e) :
    m.step.2 = .error e := by
  cases h with
  | outside h =>
    have hd : Instruction.decodeAt m.rom.toArray m.pc = .error (.romOutOfBounds m.pc) := by
      refine (Instruction.decodeAt_eq_error_iff _ _ _).2 (.inl ⟨?_, rfl⟩)
      rw [Vector.getElem?_toArray, Vector.getElem?_eq_none_iff]
      exact h
    rw [step_of_decodeAt_error hh hd]
    rfl
  | unknownOpcode hb hk =>
    have hd : Instruction.decodeAt m.rom.toArray m.pc = .error (.unknownOpcode _) :=
      (Instruction.decodeAt_eq_error_iff _ _ _).2
        (.inr ⟨_, by rw [Vector.getElem?_toArray, hb], hk, rfl⟩)
    rw [step_of_decodeAt_error hh hd]
    rfl
  | registerOverflow hi hb =>
    have ho := (Instruction.operation_eq_error_iff _ _).2 ⟨_, hb, rfl⟩
    rw [step_of_operation_error hh hi ho]
    rfl
  | @divisionByZero i r hi hok hk hr hz =>
    obtain ⟨op, ho⟩ := (Instruction.operation_isOk_iff i).2 hok
    obtain ⟨a, b, dst, rfl, hb⟩ := (Instruction.alu_mod_of_operation m _ ho).2 ⟨hk, r, hr, hz⟩
    have hsnd := (execute_snd_eq_error_iff { m with busy := i.kind.isHeavy } (.alu .mod a b dst)
      trivial .divisionByZero).2 ⟨a, b, dst, rfl, by simpa using hb, rfl⟩
    rcases hx : { m with busy := i.kind.isHeavy }.execute (.alu .mod a b dst) with ⟨m', e' | r⟩
    · rw [hx] at hsnd
      cases hsnd
      rw [step_of_execute_error hh hi ho hx]
    · rw [hx] at hsnd
      cases hsnd

/-- On a running machine a step fails exactly on the four faults of `StepFault`. -/
theorem step_error_iff (hh : m.halted = false) (e : Fault) : m.step.2 = .error e ↔ m.StepFault e :=
  ⟨stepFault_of_step_error hh, step_error_of_stepFault hh⟩

end Faults

/-! ## What a step that succeeds changes -/

/-- An operation changes RAM at most at the position it stores at. -/
theorem store?_of_cells_execute {m : Machine} (hm : m.ram.size = ramSize) (op : Operation) {q : Nat}
    (h : (m.execute op).1.ram.cells[q]? ≠ m.ram.cells[q]?) : (op.store? m).map Prod.fst = some q := by
  rw [ram_execute] at h
  split at h
  · rename_i p v hst
    rw [Memory.getElem?_cells_save] at h
    split at h
    · rename_i hq
      -- a stored position is a byte, so it names its own cell
      rw [hm, Nat.mod_eq_of_lt (Operation.store?_fst_lt hst)] at hq
      simp [hst, hq]
    · exact absurd rfl h
  · exact absurd rfl h

/-- What a step that carried out instruction `i` from `m` to `m'`, ending with `r`,
may change, read off the instruction's kind and operands and the registers of `m`.
ROM is kept and RAM changes at most in the cell the instruction stores at.
Registers change only where the instruction writes: the wide arithmetic leaves its
carry in `OVFL` whatever its destination, and `POP` leaves the popped byte in its
destination, also when that is `STCK`. Flags the kind is not about keep their
values and those it clears are clear. The machine halts exactly on `HLT`, the
counter moves to the target of a taken jump and past the instruction otherwise,
and the instruction is recorded as the last one. -/
structure StepFootprint (m m' : Machine) (i : Instruction) (r : Outcome) : Prop where
  rom_eq : m'.rom = m.rom
  ram_cell : ∀ q, m'.ram.cells[q]? ≠ m.ram.cells[q]? → i.ramCell? m = some q
  reg_written : ∀ s, m'.reg s ≠ m.reg s → i.WritesRegister s
  carry : ∀ c, i.carry? m = some c → m'.reg Register.overflow = c
  popped : i.kind = .pop → ∀ d : Register, d.index.val = (i.operand 0).toNat →
    m'.reg d = m.ram.load (((m.reg Register.stack).toNat + stackSize - 1) % stackSize)
  flag_kept : ∀ f, f ∉ i.kind.flagsWritten → m'.flags.get f = m.flags.get f
  flag_cleared : ∀ f ∈ i.kind.flagsCleared, m'.flags.get f = false
  halted_eq : m'.halted = (i.kind == .hlt)
  pc_jumped : r = .jumped → i.jumpTarget? m = some m'.pc
  pc_next : r ≠ .jumped → m'.pc = m.pc + i.width
  current_eq : m'.current = some i

/-- Carrying out the operation of `i` with the busy line raised, lowering the line,
moving the counter and recording `i` changes only the footprint of `i`. -/
theorem stepFootprint_of_execute {m : Machine} (hm : m.ram.size = ramSize)
    (hh : m.halted = false) {i : Instruction} {op : Operation} {r : Outcome}
    (ho : i.operation = .ok op) (hx : ({ m with busy := i.kind.isHeavy }.execute op).2 = .ok r) :
    StepFootprint m { ({ ({ m with busy := i.kind.isHeavy }.execute op).1 with busy := false }).finish
      i.width r with current := some i } i r where
  rom_eq := by simp
  ram_cell q h := by
    rw [← Instruction.store?_of_operation m op ho, ← Operation.store?_with_busy m op i.kind.isHeavy]
    exact store?_of_cells_execute (m := { m with busy := i.kind.isHeavy }) hm op (by simpa using h)
  reg_written s h := by
    refine Classical.byContradiction fun hw => h ?_
    have := reg_execute_of_not_writes { m with busy := i.kind.isHeavy } op s
      (fun hop => hw (Instruction.writesRegister_of_operation op ho hop))
    simpa [Machine.reg] using this
  carry c hc := by
    rw [← Instruction.carry?_of_operation m op ho, ← Operation.carry?_with_busy m op i.kind.isHeavy]
      at hc
    simpa [Machine.reg] using reg_overflow_execute_of_carry? _ op hc
  popped hk d hd := by
    obtain rfl := Instruction.eq_pop_of_operation hk hd op ho
    simpa [Machine.reg] using reg_execute_pop { m with busy := i.kind.isHeavy } d
  flag_kept f hf := by
    have := get_flags_execute_of_not_mem { m with busy := i.kind.isHeavy } op f
      (fun hop => hf (Instruction.mem_flagsWritten_of_operation op ho hop))
    simpa using this
  flag_cleared f hf := by
    simpa using get_flags_execute_of_mem_cleared _ op f
      (Instruction.mem_flagsCleared_of_operation op ho hf)
  halted_eq := by
    have hiff : r = .halted ↔ i.kind = .hlt := by
      rw [← Instruction.eq_halt_of_operation op ho, ← execute_eq_halted_iff, hx, Except.ok.injEq]
    have hr : (r == .halted) = (i.kind == .hlt) := by
      rw [Bool.eq_iff_iff, beq_iff_eq, beq_iff_eq]
      exact hiff
    simp [finish_halted, hh, hr]
  pc_jumped hr := by
    subst hr
    rw [← Instruction.target?_of_operation m op ho, ← Operation.target?_with_busy m op i.kind.isHeavy,
      target?_of_execute_jumped _ op hx]
    simp [finish_pc]
  pc_next hr := by
    have hpc := pc_execute_of_not_jumped { m with busy := i.kind.isHeavy } op
      (by rw [hx]; simpa using hr)
    simp [finish_pc, hr, hpc, Instruction.width]
  current_eq := rfl

/-- A step of a reachable running machine that succeeds carried out the
instruction decoded at the counter, and changed only what that instruction
names. -/
theorem step_changes_only_footprint {m m' : Machine} {r : Outcome} (hm : m.Reachable)
    (hh : m.halted = false) (hs : m.step = (m', .ok r)) :
    ∃ i, Instruction.decodeAt m.rom.toArray m.pc = .ok i ∧ StepFootprint m m' i r := by
  rcases step_cases hh with ⟨d, -, hs'⟩ | ⟨i, d, -, -, hs'⟩ | ⟨i, op, m₁, e, -, -, -, hs'⟩ |
    ⟨i, op, m₁, r', hd, ho, hx, hs'⟩
  · rw [hs'] at hs
    cases hs
  · rw [hs'] at hs
    cases hs
  · rw [hs'] at hs
    cases hs
  · rw [hs'] at hs
    obtain ⟨rfl, hr⟩ := Prod.mk.inj hs
    obtain rfl := Except.ok.inj hr
    refine ⟨i, hd, ?_⟩
    have hfst : m₁ = ({ m with busy := i.kind.isHeavy }.execute op).1 := by rw [hx]
    have hsnd : ({ m with busy := i.kind.isHeavy }.execute op).2 = .ok r' := by rw [hx]
    subst hfst
    exact stepFootprint_of_execute hm.idle.ram_size hh ho hsnd

set_option maxRecDepth 20000 in
/-- After `IMM 9 %0`, the step that carries out `PSH %0` changes only its footprint. -/
theorem push_step_changes_only_footprint :
    let m := (Machine.new.load [0x81, 9, 0, 0x5C, 0]).1.step.1
    m.Reachable ∧ m.halted = false ∧ m.rom.toArray[m.pc]? = some 0x5C ∧
      m.step = (m.step.1, .ok .normal) ∧
      ∃ i, Instruction.decodeAt m.rom.toArray m.pc = .ok i ∧
        StepFootprint m m.step.1 i .normal := by
  intro m
  have hm : m.Reachable := .call .step (.call (.load _) .new)
  have hs : m.step = (m.step.1, .ok .normal) := Prod.ext rfl rfl
  exact ⟨hm, rfl, rfl, hs, step_changes_only_footprint hm rfl hs⟩

/-- On every reachable machine: a step of a running machine fails exactly on the
faults of `StepFault`; a failing step, operation, load or source load changes
nothing; and a failing run stops at the machine its failing step was handed,
which the run reached by steps that succeeded. -/
theorem faults_exact_and_atomic {m : Machine} (hm : m.Reachable) :
    (m.halted = false → ∀ e, m.step.2 = .error e ↔ m.StepFault e) ∧
    (∀ e, m.step.2 = .error e → m.step.1 = m) ∧
    (∀ op e, (m.execute op).2 = .error e → (m.execute op).1 = m) ∧
    (∀ program e, (m.load program).2 = .error e → (m.load program).1 = m) ∧
    (∀ source e, (m.loadSource source).2 = .error e → (m.loadSource source).1 = m) ∧
    (∀ limit e, (m.run limit).2 = .error e →
      m.StepsTo (m.run limit).1 ∧ (m.run limit).1.step = ((m.run limit).1, .error e)) :=
  ⟨step_error_iff,
   fun _ => step_fst_of_error hm.idle,
   fun op _ => execute_fst_of_error m op,
   fun _ _ => load_fst_of_error,
   fun _ _ => loadSource_fst_of_error,
   fun _ _ => runFrom_of_error hm.idle⟩

set_option maxRecDepth 20000 in
/-- After `IMM 7 %0`, `MOD %0 %1 %2` takes the remainder by `%1`, which holds zero: the
step faults, and leaves the machine as the first step left it. -/
theorem mod_by_zero_faults_atomically :
    let m := (Machine.new.load [0x81, 7, 0, 0xEB, 0, 1, 2]).1.step.1
    m.Reachable ∧ m.reg ⟨0⟩ = 7 ∧ m.step.2 = .error .divisionByZero ∧
      m.StepFault .divisionByZero ∧ m.step.1 = m := by
  intro m
  have hm : m.Reachable := .call .step (.call (.load _) .new)
  have hs : m.step.2 = .error .divisionByZero := rfl
  obtain ⟨hexact, hatomic, -⟩ := faults_exact_and_atomic hm
  exact ⟨hm, rfl, hs, (hexact rfl _).1 hs, hatomic _ hs⟩

end Machine

end ByteMachine
