import ByteMachine.Proofs.Step

/-!
# Straight-line runs follow the listing of ROM

A step reads ROM the way a listing does: it decodes the instruction at the
counter and, when the instruction neither jumps nor halts, moves the counter past
it. So a run of steps that all end normally carries out the entries of the walk
over ROM in order, from the counter on (`steps_follow_walk`).

Loading a program pads it with zeros up to the size of ROM, and zero bytes only
add `NOP` entries after the walk over the program. The main result,
`steps_follow_listing`, is that after loading a program into a running machine
with its counter at zero, `k` steps that all end normally carry out the first `k`
entries of the program's listing followed by a `NOP` at every offset up to the
end of ROM, reading operands past the end of the program as zero. The counter
then stands at the next entry. Once every entry has been carried out it stands
past the last one: at the walk's end when the last instruction reaches past the
end of ROM, and at the end of ROM otherwise (`steps_past_empty_program`).
-/
namespace ByteMachine

open Instruction Listing

/-- The listing of a program in ROM: the walk over the program, then a `NOP` at
every offset from where the walk stops to the end of ROM. -/
def romListing (p : List UInt8) : List (Nat × Except DecodeError Instruction) :=
  walk p.toArray ++ padding (walkEnd p.toArray) romSize

namespace Machine

/-! ## Runs of steps -/

section Steps

variable {m m' : Machine} {k : Nat}

@[simp] theorem steps_zero (m : Machine) : m.steps 0 = (m, [], none) := rfl

theorem steps_succ_of_step_ok {r : Outcome} (h : m.step = (m', .ok r)) (k : Nat) :
    m.steps (k + 1) = ((m'.steps k).1, r :: (m'.steps k).2.1, (m'.steps k).2.2) := by
  simp only [steps, h]

theorem steps_succ_of_step_error {e : Fault} (h : m.step = (m', .error e)) (k : Nat) :
    m.steps (k + 1) = (m', [], some e) := by
  simp only [steps, h]

/-- Steps that all end normally: the first one does, and so do the others. -/
theorem step_of_steps_normal (hk : (m.steps (k + 1)).2.1 = List.replicate (k + 1) .normal) :
    m.step = (m.step.1, .ok .normal) ∧ (m.step.1.steps k).2.1 = List.replicate k .normal := by
  rcases hs : m.step with ⟨m₁, e | r⟩
  · rw [steps_succ_of_step_error hs] at hk
    simp at hk
  · rw [steps_succ_of_step_ok hs, List.replicate_succ, List.cons.injEq] at hk
    rw [hk.1]
    exact ⟨rfl, hk.2⟩

/-- A step of a running machine that ends normally carries out the instruction at
the counter and moves the counter past it, keeping ROM and running on. -/
theorem step_normal (hh : m.halted = false) (h : m.step = (m', .ok .normal)) :
    ∃ i, decodeAt m.rom.toArray m.pc = .ok i ∧ m'.current = some i ∧
      m'.pc = m.pc + i.width ∧ m'.rom = m.rom ∧ m'.halted = false := by
  rcases step_cases hh with ⟨d, -, hs⟩ | ⟨i, d, -, -, hs⟩ | ⟨i, op, m₁, e, -, -, -, hs⟩ |
    ⟨i, op, m₁, r, hd, -, hx, hs⟩
  all_goals rw [hs] at h
  · cases h
  · cases h
  · cases h
  · obtain ⟨rfl, hr⟩ := Prod.mk.inj h
    obtain rfl := Except.ok.inj hr
    have hpc : m₁.pc = m.pc := (pc_of_execute_eq hx (by simp) :)
    have hrom : m₁.rom = m.rom := (rom_of_execute_eq hx :)
    have hhalt : m₁.halted = m.halted := (halted_of_execute_eq hx :)
    exact ⟨i, hd, rfl, by simp [finish, hpc], by simp [hrom], by simp [finish, hhalt, hh]⟩

/-- A run of `k` steps of a running machine that all end normally carries out the
first `k` entries of the walk over ROM from the counter, each step at its entry's
offset. The counter then stands at the next entry, or where the walk stops. -/
theorem steps_follow_walk (hh : m.halted = false)
    (hk : (m.steps k).2.1 = List.replicate k .normal) :
    (∀ j < k, ∃ i, (m.steps (j + 1)).1.current = some i ∧
      (walkFrom m.rom.toArray m.pc)[j]? = some ((m.steps j).1.pc, .ok i)) ∧
    (m.steps k).1.pc =
      ((walkFrom m.rom.toArray m.pc)[k]?.map Prod.fst).getD (endFrom m.rom.toArray m.pc) := by
  induction k generalizing m with
  | zero => exact ⟨fun j hj => absurd hj (Nat.not_lt_zero j), (getD_fst_head_walkFrom _ _).symm⟩
  | succ k ih =>
    obtain ⟨hs, hrest⟩ := step_of_steps_normal hk
    obtain ⟨i, hd, hcur, hpc, hrom, hhalt⟩ := step_normal hh hs
    have hlt := lt_of_decodeAt_eq_ok hd
    have hwalk : walkFrom m.rom.toArray m.pc =
        (m.pc, .ok i) :: walkFrom m.step.1.rom.toArray m.step.1.pc := by
      rw [walkFrom_of_lt hlt, hd, advance_ok, hrom, hpc]
    have hend : endFrom m.rom.toArray m.pc = endFrom m.step.1.rom.toArray m.step.1.pc := by
      rw [endFrom_of_lt hlt, hd, advance_ok, hrom, hpc]
    obtain ⟨ihl, ihpc⟩ := ih hhalt hrest
    rw [hwalk, hend]
    refine ⟨fun j hj => ?_, ?_⟩
    · cases j with
      | zero => exact ⟨i, by rw [steps_succ_of_step_ok hs]; exact hcur, rfl⟩
      | succ j =>
        rw [steps_succ_of_step_ok hs, steps_succ_of_step_ok hs]
        exact ihl j (by omega)
    · rw [steps_succ_of_step_ok hs]
      exact ihpc

/-- A step at a zero byte carries out `NOP`: it moves the counter on by one. -/
theorem step_of_decodeAt_nop (hh : m.halted = false)
    (hd : decodeAt m.rom.toArray m.pc = .ok (Instruction.new .nop)) :
    m.step = ({ m with busy := false, pc := m.pc + 1, current := some (Instruction.new .nop) },
      .ok .normal) := by
  rw [step_of_execute_ok hh hd rfl rfl]
  rfl

/-- A running machine goes through zero bytes of ROM one `NOP` at a time. -/
theorem steps_of_zeros (hh : m.halted = false)
    (hz : ∀ q, m.pc ≤ q → q < romSize → m.rom.toArray[q]? = some 0) (hk : m.pc + k ≤ romSize) :
    (m.steps k).2.1 = List.replicate k .normal ∧ (m.steps k).1.pc = m.pc + k := by
  induction k generalizing m with
  | zero => simp
  | succ k ih =>
    have hs := step_of_decodeAt_nop hh (decodeAt_of_zero (hz m.pc le_rfl (by omega)))
    have hh₁ : m.step.1.halted = false := by rw [hs]; exact hh
    have hpc₁ : m.step.1.pc = m.pc + 1 := by rw [hs]
    have hrom₁ : m.step.1.rom = m.rom := by rw [hs]
    obtain ⟨hrest, hpc⟩ := ih hh₁
      (fun q hq hlt => by rw [hrom₁]; exact hz q (by omega) hlt) (by omega)
    rw [hs] at hrest hpc
    rw [steps_succ_of_step_ok hs, hrest, hpc, List.replicate_succ]
    simp only [true_and]
    omega

end Steps

/-! ## Loaded programs -/

/-- The ROM image of a program is the program followed by zeros. -/
theorem toArray_romImage {p : List UInt8} (hp : p.length ≤ romSize) :
    (romImage p).toArray = (p ++ List.replicate (romSize - p.length) 0).toArray := by
  apply Array.ext
  · simp only [romImage, Vector.size_toArray, List.size_toArray, List.length_append,
      List.length_replicate]
    unfold romSize at hp ⊢
    omega
  · intro j h₁ h₂
    simp only [romImage, Vector.toArray_ofFn, Array.getElem_ofFn, List.getElem_toArray]
    by_cases hj : j < p.length
    · simp [List.getElem_append_left hj, hj]
    · rw [List.getElem_append_right (Nat.le_of_not_lt hj)]
      simp [List.getElem?_eq_none (Nat.le_of_not_lt hj)]

/-- The walk over a loaded ROM is the program's listing. -/
theorem walkFrom_romImage {p : List UInt8} (hp : p.length ≤ romSize) :
    walkFrom (romImage p).toArray 0 = romListing p := by
  rw [toArray_romImage hp, walkFrom_append_zeros, Nat.add_sub_cancel' hp]
  rfl

/-- The walk over a loaded ROM stops at the walk's end over the program, or at the
end of ROM when that is later. -/
theorem endFrom_romImage {p : List UInt8} (hp : p.length ≤ romSize) :
    endFrom (romImage p).toArray 0 = max (walkEnd p.toArray) romSize := by
  rw [toArray_romImage hp, endFrom_append_zeros, Nat.add_sub_cancel' hp]
  rfl

/-- Straight-line runs of a loaded program follow its listing: after `k` steps
that all end normally, the instructions carried out are the first `k` entries of
the program's listing, each at the counter where its step began, and the counter
stands at the next entry, or past the last entry once they are all done. -/
theorem steps_follow_listing {m : Machine} {p : List UInt8} (hp : p.length ≤ romSize)
    (hpc : m.pc = 0) (hh : m.halted = false) {k : Nat}
    (hk : ((m.load p).1.steps k).2.1 = List.replicate k .normal) :
    (∀ j < k, ∃ i, ((m.load p).1.steps (j + 1)).1.current = some i ∧
      (romListing p)[j]? = some (((m.load p).1.steps j).1.pc, .ok i)) ∧
    ((m.load p).1.steps k).1.pc =
      ((romListing p)[k]?.map Prod.fst).getD (max (walkEnd p.toArray) romSize) := by
  have hload : (m.load p).1 = { m with rom := romImage p } := by
    rw [load_fst, if_pos hp]
  have hrom : (m.load p).1.rom.toArray = (romImage p).toArray := by rw [hload]
  have hpc₀ : (m.load p).1.pc = 0 := by rw [hload]; exact hpc
  have hrun := steps_follow_walk (by rw [hload]; exact hh) hk
  rw [hrom, hpc₀, walkFrom_romImage hp, endFrom_romImage hp] at hrun
  exact hrun

set_option maxRecDepth 20000 in
/-- `IMM 5 %0` then `INC %0`: two steps that end normally carry out the first two
entries of the listing. -/
theorem imm_inc_follows_listing :
    let p : List UInt8 := [0x81, 5, 0, 0x68, 0]
    p.length ≤ romSize ∧ Machine.new.pc = 0 ∧ Machine.new.halted = false ∧
    ((Machine.new.load p).1.steps 2).2.1 = List.replicate 2 .normal ∧
    (∀ j < 2, ∃ i, ((Machine.new.load p).1.steps (j + 1)).1.current = some i ∧
      (romListing p)[j]? = some (((Machine.new.load p).1.steps j).1.pc, .ok i)) ∧
    ((Machine.new.load p).1.steps 2).1.pc =
      ((romListing p)[2]?.map Prod.fst).getD (max (walkEnd p.toArray) romSize) := by
  have hk : ((Machine.new.load [0x81, 5, 0, 0x68, 0]).1.steps 2).2.1 =
      List.replicate 2 .normal := by
    decide
  exact ⟨by decide, rfl, rfl, hk, steps_follow_listing (by decide) rfl rfl hk⟩

/-- An empty program lists as a `NOP` at every offset of ROM. Once they have all
been carried out the counter stands at the end of ROM, past the walk's end over
the program, which is zero. -/
theorem steps_past_empty_program :
    ([] : List UInt8).length ≤ romSize ∧ Machine.new.pc = 0 ∧ Machine.new.halted = false ∧
    ((Machine.new.load []).1.steps romSize).2.1 = List.replicate romSize .normal ∧
    ((Machine.new.load []).1.steps romSize).1.pc = romSize ∧
    ((romListing [])[romSize]?.map Prod.fst).getD (walkEnd ([] : List UInt8).toArray) = 0 := by
  have hp : ([] : List UInt8).length ≤ romSize := by decide
  have hload : (Machine.new.load []).1 = { Machine.new with rom := romImage [] } := by
    rw [load_fst, if_pos hp]
  have hz : ∀ q, 0 ≤ q → q < romSize → (romImage []).toArray[q]? = some 0 := by
    intro q _ hq
    rw [toArray_romImage hp, List.getElem?_toArray, List.nil_append, List.getElem?_replicate,
      if_pos (by simpa using hq)]
  obtain ⟨hk, hpc⟩ := steps_of_zeros (m := { Machine.new with rom := romImage [] }) (k := romSize)
    rfl hz (by simp [Machine.new])
  have hlen : (romListing []).length = romSize := by
    simp [romListing, walk, walkEnd, walkFrom_of_le, endFrom_of_le, padding]
  refine ⟨hp, rfl, rfl, by rw [hload]; exact hk, by rw [hload, hpc]; rfl, ?_⟩
  rw [List.getElem?_eq_none (by rw [hlen])]
  simp [walkEnd, endFrom_of_le]

end Machine

end ByteMachine
