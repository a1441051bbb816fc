import ByteMachine.Proofs.Execute

/-!
# The stack

`PSH` stores a register in the cell the stack pointer `STCK` names and moves the
pointer up by one, modulo sixteen; `POP` moves the pointer down by one, modulo
sixteen, and loads the cell it then names. With the pointer inside the window of
the first sixteen cells, the cells below the pointer behave as a stack of at most
sixteen bytes: pushing `N ≤ 16` registers and then popping `N` times into
registers other than `STCK` gives the pushed bytes back in reverse order and
restores the pointer.

A push stores at the pointer as it stands, but every pointer it leaves is
reduced modulo sixteen. With the pointer at sixteen or above, the first push
stores outside the window and the pointer ends reduced: the law holds exactly
when nothing is pushed or the pointer starts inside the window.
-/
namespace ByteMachine

namespace Machine

def sp (m : Machine) : Nat :=
  (m.reg Register.stack).toNat

/-- Pushes the registers `rs` in order. Gives the machine left and the bytes
pushed, each the value its register held when it was pushed. -/
def pushAll (m : Machine) : List Register → Machine × List UInt8
  | [] => (m, [])
  | r :: rs =>
    let (m', vs) := (m.execute (.push r)).1.pushAll rs
    (m', m.reg r :: vs)

/-- Pops into the registers `ds` in order. Gives the machine left and the byte
each pop left in its register. -/
def popAll (m : Machine) : List Register → Machine × List UInt8
  | [] => (m, [])
  | d :: ds =>
    let m₁ := (m.execute (.pop d)).1
    let (m', vs) := m₁.popAll ds
    (m', m₁.reg d :: vs)

/-- The `k` cells below the stack pointer, the top first. -/
def stackView (m : Machine) (k : Nat) : List UInt8 :=
  (List.range k).map fun i => m.ram.load ((m.sp + (stackSize - 1 - i)) % stackSize)

/-! ## One push, one pop -/

section PushPop

variable (m : Machine)

theorem ram_execute_push (r : Register) :
    (m.execute (.push r)).1.ram = m.ram.save m.sp (m.reg r) := by
  simp [execute, sp]

theorem sp_execute_push (r : Register) :
    (m.execute (.push r)).1.sp = (m.sp + 1) % stackSize := by
  simp [execute, sp]
  simp only [stackSize]
  omega

theorem ram_execute_pop (d : Register) : (m.execute (.pop d)).1.ram = m.ram := by
  simp [execute]

theorem sp_execute_pop {d : Register} (hd : d ≠ Register.stack) :
    (m.execute (.pop d)).1.sp = (m.sp + stackSize - 1) % stackSize := by
  simp [execute, sp, Ne.symm hd]
  simp only [stackSize]
  omega

/-- A push with the pointer inside the window puts the pushed byte on top of the
`k < 16` cells below the pointer. -/
theorem stackView_execute_push (hram : m.ram.size = ramSize) (hsp : m.sp < stackSize) {k : Nat}
    (hk : k < stackSize) (r : Register) :
    (m.execute (.push r)).1.stackView (k + 1) = m.reg r :: m.stackView k := by
  simp only [stackView, List.range_succ_eq_map, List.map_cons, List.map_map,
    sp_execute_push, ram_execute_push]
  congr 1
  · -- the new top is the cell the push stored in
    rw [show ((m.sp + 1) % stackSize + (stackSize - 1 - 0)) % stackSize = m.sp by
      simp only [stackSize] at hsp ⊢
      omega]
    rw [Memory.load_save, if_pos rfl]
  · -- the cells below it are the old top `k`, which the store missed
    refine List.map_congr_left fun i hi => ?_
    have hi : i < k := List.mem_range.1 hi
    simp only [Function.comp_apply, Nat.succ_eq_add_one]
    rw [show ((m.sp + 1) % stackSize + (stackSize - 1 - (i + 1))) % stackSize =
        (m.sp + (stackSize - 1 - i)) % stackSize by
      simp only [stackSize] at hk ⊢
      omega]
    rw [Memory.load_save, if_neg]
    rw [hram]
    simp only [ramSize, stackSize] at hsp hk ⊢
    omega

/-- A pop into a register other than `STCK` takes the top cell below the pointer
and leaves the rest. -/
theorem stackView_execute_pop {d : Register} (hd : d ≠ Register.stack) {k : Nat}
    (hk : k < stackSize) :
    m.stackView (k + 1) = (m.execute (.pop d)).1.reg d :: (m.execute (.pop d)).1.stackView k := by
  simp only [stackView, List.range_succ_eq_map, List.map_cons, List.map_map,
    sp_execute_pop m hd, ram_execute_pop, reg_execute_pop]
  rw [List.cons.injEq]
  refine ⟨?_, List.map_congr_left fun i hi => ?_⟩
  · -- the top is the cell below the pointer, where the pop reads
    rfl
  · have hi : i < k := List.mem_range.1 hi
    simp only [Function.comp_apply, Nat.succ_eq_add_one]
    congr 1
    simp only [stackSize] at hk ⊢
    omega

end PushPop

/-! ## Runs of pushes and of pops -/

@[simp] theorem pushAll_nil (m : Machine) : m.pushAll [] = (m, []) := rfl

theorem pushAll_cons (m : Machine) (r : Register) (rs : List Register) :
    m.pushAll (r :: rs) =
      (((m.execute (.push r)).1.pushAll rs).1, m.reg r :: ((m.execute (.push r)).1.pushAll rs).2) :=
  rfl

@[simp] theorem popAll_nil (m : Machine) : m.popAll [] = (m, []) := rfl

theorem popAll_cons (m : Machine) (d : Register) (ds : List Register) :
    m.popAll (d :: ds) =
      (((m.execute (.pop d)).1.popAll ds).1,
        (m.execute (.pop d)).1.reg d :: ((m.execute (.pop d)).1.popAll ds).2) :=
  rfl

theorem length_pushAll (m : Machine) (rs : List Register) : (m.pushAll rs).2.length = rs.length := by
  induction rs generalizing m with
  | nil => rfl
  | cons r rs ih => simp [pushAll_cons, ih]

/-- After a push the pointer is `sp + 1` modulo sixteen, whatever it was. -/
theorem sp_pushAll (m : Machine) {rs : List Register} (h : rs ≠ []) :
    (m.pushAll rs).1.sp = (m.sp + rs.length) % stackSize := by
  induction rs generalizing m with
  | nil => exact absurd rfl h
  | cons r rs ih =>
    rw [pushAll_cons]
    by_cases hrs : rs = []
    · subst hrs
      simp [sp_execute_push]
    · rw [ih _ hrs, sp_execute_push]
      simp only [List.length_cons, stackSize]
      omega

/-- After a pop into a register other than `STCK` the pointer is `sp - 1` modulo
sixteen, whatever it was. -/
theorem sp_popAll (m : Machine) {ds : List Register} (hds : Register.stack ∉ ds) (h : ds ≠ []) :
    (m.popAll ds).1.sp = (m.sp + (stackSize - 1) * ds.length) % stackSize := by
  induction ds generalizing m with
  | nil => exact absurd rfl h
  | cons d ds ih =>
    have hd : d ≠ Register.stack := fun hd => hds (hd ▸ List.mem_cons_self ..)
    have hds' : Register.stack ∉ ds := fun h' => hds (List.mem_cons_of_mem _ h')
    rw [popAll_cons]
    by_cases hnil : ds = []
    · subst hnil
      simp [sp_execute_pop _ hd, stackSize]
    · rw [ih _ hds' hnil, sp_execute_pop _ hd]
      simp only [List.length_cons, stackSize]
      omega

/-- Pushing `rs` with the pointer inside the window puts the pushed bytes, the
last on top, over the `k` cells below the pointer, as long as all fit in the
window. -/
theorem stackView_pushAll (m : Machine) (hram : m.ram.size = ramSize) (hsp : m.sp < stackSize)
    {rs : List Register} {k : Nat} (hk : k + rs.length ≤ stackSize) :
    (m.pushAll rs).1.stackView (k + rs.length) = (m.pushAll rs).2.reverse ++ m.stackView k := by
  induction rs generalizing m k with
  | nil => rfl
  | cons r rs ih =>
    have hram' : (m.execute (.push r)).1.ram.size = ramSize := by
      simp [ram_execute_push, hram]
    have hsp' : (m.execute (.push r)).1.sp < stackSize := by
      rw [sp_execute_push]
      exact Nat.mod_lt _ (by decide)
    simp only [List.length_cons] at hk
    have := ih (m.execute (.push r)).1 hram' hsp' (k := k + 1) (by omega)
    rw [stackView_execute_push m hram hsp (by omega)] at this
    rw [pushAll_cons, List.length_cons, show k + (rs.length + 1) = k + 1 + rs.length by omega,
      this, List.reverse_cons, List.append_assoc, List.singleton_append]

/-- Popping into `ds`, none of them `STCK`, leaves in them the top `ds.length`
cells below the pointer, the top first. -/
theorem popAll_snd (m : Machine) {ds : List Register} (hds : Register.stack ∉ ds) {k : Nat}
    (hk : ds.length ≤ k) (hk16 : k ≤ stackSize) :
    (m.popAll ds).2 = (m.stackView k).take ds.length := by
  induction ds generalizing m k with
  | nil => rfl
  | cons d ds ih =>
    have hd : d ≠ Register.stack := fun hd => hds (hd ▸ List.mem_cons_self ..)
    have hds' : Register.stack ∉ ds := fun h' => hds (List.mem_cons_of_mem _ h')
    simp only [List.length_cons] at hk
    obtain ⟨k, rfl⟩ : ∃ k', k = k' + 1 := ⟨k - 1, by omega⟩
    rw [popAll_cons, stackView_execute_pop m hd (by omega), List.length_cons, List.take_succ_cons,
      @ih _ hds' k (by omega) (by omega)]

/-- The stack law: pushing `N ≤ 16` registers and then popping `N` times into
registers other than `STCK` gives the pushed bytes back in reverse order and
restores `STCK`, exactly when nothing is pushed or `STCK` starts inside the
window of sixteen cells. -/
theorem stack_law_iff {m : Machine} (hram : m.ram.size = ramSize) {rs ds : List Register}
    (hlen : ds.length = rs.length) (hN : rs.length ≤ stackSize) (hds : Register.stack ∉ ds) :
    ((m.pushAll rs).1.popAll ds).2 = (m.pushAll rs).2.reverse ∧
      ((m.pushAll rs).1.popAll ds).1.reg Register.stack = m.reg Register.stack ↔
    rs = [] ∨ m.sp < stackSize := by
  by_cases hrs : rs = []
  · subst hrs
    obtain rfl : ds = [] := List.length_eq_zero_iff.1 hlen
    simp
  have hds0 : ds ≠ [] := fun h => hrs (List.length_eq_zero_iff.1 (by rw [← hlen, h]; rfl))
  -- whatever the pointer was, the pushes and pops leave it reduced modulo sixteen
  have hsp : ((m.pushAll rs).1.popAll ds).1.sp = m.sp % stackSize := by
    rw [sp_popAll _ hds hds0, sp_pushAll _ hrs, hlen]
    simp only [stackSize]
    omega
  have hreg : ((m.pushAll rs).1.popAll ds).1.reg Register.stack = m.reg Register.stack ↔
      m.sp < stackSize := by
    rw [← UInt8.toNat_inj, ← sp, ← sp, hsp]
    exact Nat.mod_eq_iff_lt (by decide)
  simp only [hrs, false_or, hreg]
  constructor
  · exact And.right
  · intro hin
    refine ⟨?_, hin⟩
    have hview := @stackView_pushAll m hram hin rs 0 (by omega)
    rw [Nat.zero_add] at hview
    rw [@popAll_snd _ ds hds rs.length (by omega) hN, hlen, hview]
    simp only [stackView, List.range_zero, List.map_nil, List.append_nil]
    exact List.take_of_length_le (by simp [length_pushAll])

set_option maxRecDepth 20000 in
/-- Three pushes from `STCK` at 14 wrap round the end of the window, and the law holds;
the same pushes from `STCK` at 16 start outside the window, and the law fails. -/
theorem stack_law_wraps_and_fails_outside_window :
    let rs : List Register := [⟨0⟩, ⟨1⟩, ⟨2⟩]
    let ds : List Register := [⟨3⟩, ⟨4⟩, ⟨5⟩]
    let m := ((Machine.new.setReg ⟨0⟩ 1).setReg ⟨1⟩ 2).setReg ⟨2⟩ 3
    let inside := m.setReg Register.stack 14
    let outside := m.setReg Register.stack 16
    ds.length = rs.length ∧ rs.length ≤ stackSize ∧ Register.stack ∉ ds ∧
    inside.ram.size = ramSize ∧ outside.ram.size = ramSize ∧
    (((inside.pushAll rs).1.popAll ds).2 = (inside.pushAll rs).2.reverse ∧
      ((inside.pushAll rs).1.popAll ds).1.reg Register.stack = inside.reg Register.stack) ∧
    ¬(((outside.pushAll rs).1.popAll ds).2 = (outside.pushAll rs).2.reverse ∧
      ((outside.pushAll rs).1.popAll ds).1.reg Register.stack = outside.reg Register.stack) := by
  intro rs ds m inside outside
  have hlen : ds.length = rs.length := rfl
  have hN : rs.length ≤ stackSize := by decide
  have hds : Register.stack ∉ ds := by decide
  have hin : inside.ram.size = ramSize := rfl
  have hout : outside.ram.size = ramSize := rfl
  refine ⟨hlen, hN, hds, hin, hout, (stack_law_iff hin hlen hN hds).2 (.inr (by decide)),
    fun h => ?_⟩
  rcases (stack_law_iff hout hlen hN hds).1 h with h | h
  · exact absurd h (by decide)
  · exact absurd h (by decide)

set_option maxRecDepth 20000 in
/-- With `STCK` at sixteen, pushing `%0` holding 5 and popping into `%1` gives
back the old byte of cell 0 instead, and leaves `STCK` at zero. -/
theorem push_pop_outside_window :
    let m := (Machine.new.setReg Register.stack 16).setReg ⟨0⟩ 5
    (m.pushAll [⟨0⟩]).2 = [5] ∧ ((m.pushAll [⟨0⟩]).1.popAll [⟨1⟩]).2 = [0] ∧
      ((m.pushAll [⟨0⟩]).1.popAll [⟨1⟩]).1.reg Register.stack = 0 := by
  decide

end Machine

end ByteMachine
