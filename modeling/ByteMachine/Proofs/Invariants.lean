import ByteMachine.Proofs.Step

/-!
# Invariants of reachable machines

Three things hold of every machine that calls of the interface lead to from a
new one, whatever operations are carried out directly.

* The counter stays below the end of ROM plus the widest instruction. A step
  moves it past an instruction that starts inside ROM, a jump moves it into ROM
  and a reset moves it to zero, so adding the width of an instruction never takes
  it further.
* A call that ends by jumping leaves the counter inside ROM: the target is
  checked before the counter moves.
* A halted machine stays halted under every call but a reset, and while it is
  halted a step and a run change nothing: the step ends by halting and the run
  takes no step.

With `Reachable.idle` (the busy line is low between calls) they make
`Reachable.invariants`. Each is proved once for a call and then, by induction,
for every reachable machine.
-/
namespace ByteMachine

namespace Machine

open Instruction Listing

/-! ## The counter -/

section Counter

variable {m : Machine} {op : Operation}

/-- A jump that an operation takes lands inside ROM. -/
theorem pc_execute_lt_of_jumped (h : (m.execute op).2 = .ok .jumped) :
    (m.execute op).1.pc < romSize := by
  revert h
  fun_cases execute m op <;> simp +zetaDelta +contextual

/-- An operation leaves the counter where it was, or moves it inside ROM. -/
theorem pc_execute_eq_or_lt (m : Machine) (op : Operation) :
    (m.execute op).1.pc = m.pc ∨ (m.execute op).1.pc < romSize := by
  by_cases h : (m.execute op).2 = .ok .jumped
  · exact .inr (pc_execute_lt_of_jumped h)
  · exact .inl (pc_execute_of_not_jumped m op h)

/-- A jump that the operation of a step takes lands inside ROM. -/
theorem pc_lt_of_execute_eq_jumped {m' : Machine} (hx : m.execute op = (m', .ok .jumped)) :
    m'.pc < romSize := by
  have := @pc_execute_lt_of_jumped m op (by rw [hx])
  rw [hx] at this
  exact this

/-- A step that ends by jumping leaves the counter inside ROM. -/
theorem pc_step_lt_of_jumped (h : m.step.2 = .ok .jumped) : m.step.1.pc < romSize := by
  cases hh : m.halted
  · rcases step_cases hh with ⟨d, -, hs⟩ | ⟨i, d, -, -, hs⟩ | ⟨i, op, m', e, -, -, -, hs⟩ |
      ⟨i, op, m', r, -, -, hx, hs⟩
    all_goals rw [hs] at h ⊢
    · cases h
    · cases h
    · cases h
    · -- the operation itself jumped, and the step leaves the counter where it put it
      obtain rfl := Except.ok.inj h
      exact (pc_lt_of_execute_eq_jumped hx :)
  · rw [step_of_halted hh] at h
    cases h

/-- A step leaves the counter where it was, or moves it below the end of ROM plus
the widest instruction. -/
theorem pc_step_eq_or_lt (m : Machine) :
    m.step.1.pc = m.pc ∨ m.step.1.pc < romSize + Kind.maxWidth := by
  cases hh : m.halted
  · rcases step_cases hh with ⟨d, -, hs⟩ | ⟨i, d, -, -, hs⟩ | ⟨i, op, m', e, -, -, hx, hs⟩ |
      ⟨i, op, m', r, hd, -, hx, hs⟩
    · rw [hs]
      exact .inl rfl
    · rw [hs]
      exact .inl rfl
    · -- a failing operation gave back the machine it was handed
      rw [hs, eq_of_execute_eq_error hx]
      exact .inl rfl
    · -- the instruction starts inside ROM and is at most the widest one
      have hlt : m.pc < romSize := by
        have := lt_of_decodeAt_eq_ok hd
        rwa [Vector.size_toArray] at this
      have hw := Kind.width_le_maxWidth i.kind
      rw [hs]
      right
      simp only [finish_pc, width]
      by_cases hr : r = .jumped
      · rw [if_pos hr]
        subst hr
        have := pc_lt_of_execute_eq_jumped hx
        omega
      · rw [if_neg hr]
        have hpc : m'.pc = m.pc := (pc_of_execute_eq hx (fun h => hr (Except.ok.inj h)) :)
        simp only [Kind.maxWidth] at hw ⊢
        omega
  · rw [step_of_halted hh]
    exact .inl rfl

theorem pc_eq_or_lt_of_step_eq {m' : Machine} {r : Except Fault Outcome} (hs : m.step = (m', r)) :
    m'.pc = m.pc ∨ m'.pc < romSize + Kind.maxWidth := by
  have := pc_step_eq_or_lt m
  rw [hs] at this
  exact this

/-- Runs keep the counter below the end of ROM plus the widest instruction. -/
theorem pc_runFrom_lt (h : m.pc < romSize + Kind.maxWidth) (count limit : Nat) :
    (runFrom count limit m).1.pc < romSize + Kind.maxWidth := by
  revert h
  fun_induction runFrom count limit m with
  | case1 => exact id
  | case2 _ _ m _ m' e hs =>
    intro h
    have := pc_eq_or_lt_of_step_eq hs
    show m'.pc < romSize + Kind.maxWidth
    omega
  | case3 _ _ m _ m' _ hs ih =>
    intro h
    have := pc_eq_or_lt_of_step_eq hs
    exact ih (by omega)
  | case4 => exact id

/-- Every call keeps the counter below the end of ROM plus the widest instruction. -/
theorem pc_call_lt (h : m.pc < romSize + Kind.maxWidth) :
    ∀ c, (m.call c).pc < romSize + Kind.maxWidth
  | .load program => by
    rw [call, load_fst]
    exact h
  | .loadSource source => by
    obtain ⟨rom, hl⟩ := loadSource_fst m source
    rw [call, hl]
    exact h
  | .reset => by simp [call, reset, romSize, Kind.maxWidth]
  | .input _ => h
  | .step => by
    have := pc_step_eq_or_lt m
    simp only [call]
    omega
  | .run limit => pc_runFrom_lt h 0 limit
  | .execute op => by
    have := pc_execute_eq_or_lt m op
    simp only [call]
    omega
  | .ramSave _ _ => h
  | .ramWrite _ _ => h

theorem Reachable.pc_lt (hm : m.Reachable) : m.pc < romSize + Kind.maxWidth := by
  induction hm with
  | new => simp [Machine.new, romSize, Kind.maxWidth]
  | call c _ ih => exact pc_call_lt ih c

end Counter

/-! ## Halting -/

section Halted

variable {m : Machine}

/-- A halted machine does not run: it takes no step. -/
theorem run_of_halted (hh : m.halted = true) (limit : Nat) : m.run limit = (m, .ok 0) := by
  cases limit with
  | zero => rfl
  | succ limit => simp [run, runFrom, canStep, hh]

/-- Every call but a reset keeps a halted machine halted. -/
theorem halted_call (hh : m.halted = true) : ∀ c, c ≠ .reset → (m.call c).halted = true
  | .load program, _ => by
    rw [call, load_fst]
    exact hh
  | .loadSource source, _ => by
    obtain ⟨rom, hl⟩ := loadSource_fst m source
    rw [call, hl]
    exact hh
  | .reset, hc => absurd rfl hc
  | .input _, _ => hh
  | .step, _ => by rw [call, step_of_halted hh]; exact hh
  | .run limit, _ => by rw [call, run_of_halted hh]; exact hh
  | .execute op, _ => by rw [call, halted_execute]; exact hh
  | .ramSave _ _, _ => hh
  | .ramWrite _ _, _ => hh

/-- Calls without a reset keep a halted machine halted. -/
theorem halted_foldl_call (hh : m.halted = true) {cs : List Call} (hcs : Call.reset ∉ cs) :
    (cs.foldl call m).halted = true := by
  induction cs generalizing m with
  | nil => exact hh
  | cons c cs ih =>
    rw [List.mem_cons, not_or] at hcs
    exact ih (halted_call hh c (Ne.symm hcs.1)) hcs.2

end Halted

/-- What every reachable machine satisfies: the counter is at most the end of ROM
plus the widest instruction less one; a step or an operation that ends by jumping
leaves the counter inside ROM; the busy line is low; and once halted, the machine
stays halted until it is reset, its steps ending by halting and its runs taking
no step, both changing nothing. -/
theorem Reachable.invariants {m : Machine} (hm : m.Reachable) :
    m.pc ≤ romSize + Kind.maxWidth - 1 ∧
    (m.step.2 = .ok .jumped → m.step.1.pc < romSize) ∧
    (∀ op, (m.execute op).2 = .ok .jumped → (m.execute op).1.pc < romSize) ∧
    m.busy = false ∧
    (m.halted = true → ∀ cs : List Call, Call.reset ∉ cs →
      (cs.foldl Machine.call m).step = (cs.foldl Machine.call m, .ok .halted) ∧
      ∀ limit, (cs.foldl Machine.call m).run limit = (cs.foldl Machine.call m, .ok 0)) := by
  refine ⟨by have := hm.pc_lt; omega, pc_step_lt_of_jumped, fun _ => pc_execute_lt_of_jumped,
    hm.idle.busy_eq_false, fun hh cs hcs => ?_⟩
  have hh' := halted_foldl_call hh hcs
  exact ⟨step_of_halted hh', run_of_halted hh'⟩

set_option maxRecDepth 20000 in
/-- A machine halted by `HLT` keeps the invariants, and stays halted with stepping and
running doing nothing, whatever calls other than a reset follow. -/
theorem halted_machine_invariants :
    let m := (Machine.new.load [0x07]).1.step.1
    m.Reachable ∧ m.halted = true ∧
    m.pc ≤ romSize + Kind.maxWidth - 1 ∧
    (m.step.2 = .ok .jumped → m.step.1.pc < romSize) ∧
    (∀ op, (m.execute op).2 = .ok .jumped → (m.execute op).1.pc < romSize) ∧
    m.busy = false ∧
    ∀ cs : List Call, Call.reset ∉ cs →
      (cs.foldl call m).step = (cs.foldl call m, .ok .halted) ∧
      ∀ limit, (cs.foldl call m).run limit = (cs.foldl call m, .ok 0) := by
  intro m
  have hm : m.Reachable := .call .step (.call (.load _) .new)
  have hh : m.halted = true := rfl
  obtain ⟨hpc, hjump, hexec, hbusy, hhalt⟩ := Reachable.invariants hm
  exact ⟨hm, hh, hpc, hjump, hexec, hbusy, hhalt hh⟩

end Machine

end ByteMachine
