import ByteMachine.Isa.Register

/-!
# The register file

The eight general-purpose registers sit in an array and the seven registers with
fixed roles in fields of their own. Reading a register and writing one are two
separate dispatches on the register, each trying the fixed-role registers first
and falling through to the general array. The snapshot of all fifteen values is
built by drawing registers one at a time from an iterator over `Register.all`.

That this layout behaves as one flat array of fifteen bytes indexed by register is
a theorem (`RegisterFile.array_set` and its neighbours), not a matter of the layout.
-/

namespace ByteMachine

namespace Register

/-- Every register is general purpose or one of the seven with fixed roles. -/
theorem general_or_fixed (r : Register) :
    r.index.val < generalCount ∨ r = addr ∨ r = data ∨ r = ramAddr ∨ r = ramData ∨
      r = stack ∨ r = overflow ∨ r = input := by
  obtain ⟨⟨i, hi⟩⟩ := r
  simp only [addr, data, ramAddr, ramData, stack, overflow, input, Register.mk.injEq,
    Fin.ext_iff, generalCount]
  omega

/-- A register other than the seven with fixed roles is general purpose, so the
last arm of a dispatch on registers indexes the general array in bounds. -/
theorem index_lt_generalCount {r : Register} (h₁ : r ≠ addr) (h₂ : r ≠ data)
    (h₃ : r ≠ ramAddr) (h₄ : r ≠ ramData) (h₅ : r ≠ stack) (h₆ : r ≠ overflow)
    (h₇ : r ≠ input) : r.index.val < generalCount := by
  rcases r.general_or_fixed with h | h | h | h | h | h | h | h
  · exact h
  all_goals contradiction

/-- A general-purpose register is none of the seven with fixed roles. -/
theorem ne_fixed_of_lt {r : Register} (h : r.index.val < generalCount) :
    r ≠ addr ∧ r ≠ data ∧ r ≠ ramAddr ∧ r ≠ ramData ∧ r ≠ stack ∧ r ≠ overflow ∧
      r ≠ input := by
  obtain ⟨⟨i, hi⟩⟩ := r
  simp only [generalCount] at h
  simp only [addr, data, ramAddr, ramData, stack, overflow, input, ne_eq, Register.mk.injEq,
    Fin.ext_iff]
  omega

/-- Registers are equal when their indices are. -/
theorem index_val_inj {r s : Register} : r.index.val = s.index.val ↔ r = s := by
  obtain ⟨⟨i, hi⟩⟩ := r
  obtain ⟨⟨j, hj⟩⟩ := s
  simp

end Register

/-- The register file: `%0` … `%7` in an array, in index order, and `ADDR`, `DATA`,
`RAMA`, `RAMD`, `STCK`, `OVFL` and `INPT` by name. -/
structure RegisterFile where
  general : Vector UInt8 generalCount
  address : UInt8
  data : UInt8
  ramAddress : UInt8
  ramData : UInt8
  stack : UInt8
  overflow : UInt8
  input : UInt8
  deriving DecidableEq, Repr

namespace RegisterFile

def zero : RegisterFile :=
  ⟨Vector.replicate generalCount 0, 0, 0, 0, 0, 0, 0, 0⟩

def get (rf : RegisterFile) (r : Register) : UInt8 :=
  if h₁ : r = .addr then rf.address
  else if h₂ : r = .data then rf.data
  else if h₃ : r = .ramAddr then rf.ramAddress
  else if h₄ : r = .ramData then rf.ramData
  else if h₅ : r = .stack then rf.stack
  else if h₆ : r = .overflow then rf.overflow
  else if h₇ : r = .input then rf.input
  else
    have hr := Register.index_lt_generalCount h₁ h₂ h₃ h₄ h₅ h₆ h₇
    rf.general[r.index.val]

/-- The file with register `r` holding `v`. -/
def set (rf : RegisterFile) (r : Register) (v : UInt8) : RegisterFile :=
  if h₁ : r = .addr then { rf with address := v }
  else if h₂ : r = .data then { rf with data := v }
  else if h₃ : r = .ramAddr then { rf with ramAddress := v }
  else if h₄ : r = .ramData then { rf with ramData := v }
  else if h₅ : r = .stack then { rf with stack := v }
  else if h₆ : r = .overflow then { rf with overflow := v }
  else if h₇ : r = .input then { rf with input := v }
  else
    have hr := Register.index_lt_generalCount h₁ h₂ h₃ h₄ h₅ h₆ h₇
    { rf with general := rf.general.set r.index.val v hr }

def clear (_ : RegisterFile) : RegisterFile := zero

@[simp] theorem clear_eq_zero (rf : RegisterFile) : rf.clear = zero := rfl

/-- `n` draws from an iterator over the registers `rs`: each draw reads the next
register, or gives zero once the registers have run out. -/
def draw (rf : RegisterFile) : Nat → List Register → List UInt8
  | 0, _ => []
  | n + 1, rs => ((rs.head?.map rf.get).getD 0) :: rf.draw n rs.tail

theorem length_draw (rf : RegisterFile) (n : Nat) (rs : List Register) :
    (rf.draw n rs).length = n := by
  induction n generalizing rs with
  | zero => rfl
  | succ n ih => simp [draw, ih]

/-- The values of all registers, in register order: fifteen draws from an
iterator over `Register.all`. -/
def array (rf : RegisterFile) : Vector UInt8 15 :=
  ⟨(rf.draw 15 Register.all).toArray, by simp [length_draw]⟩

/-- The values of all registers, in register order. -/
def toList (rf : RegisterFile) : List UInt8 :=
  rf.array.toList

/-! The arms of the two dispatches, one fixed-role register at a time and the general
registers together. -/

section Dispatch

variable (rf : RegisterFile) (v : UInt8)

theorem set_addr : rf.set .addr v = { rf with address := v } := rfl
theorem set_data : rf.set .data v = { rf with data := v } := rfl
theorem set_ramAddr : rf.set .ramAddr v = { rf with ramAddress := v } := rfl
theorem set_ramData : rf.set .ramData v = { rf with ramData := v } := rfl
theorem set_stack : rf.set .stack v = { rf with stack := v } := rfl
theorem set_overflow : rf.set .overflow v = { rf with overflow := v } := rfl
theorem set_input : rf.set .input v = { rf with input := v } := rfl

theorem get_of_lt {r : Register} (h : r.index.val < generalCount) :
    rf.get r = rf.general[r.index.val] := by
  obtain ⟨h₁, h₂, h₃, h₄, h₅, h₆, h₇⟩ := Register.ne_fixed_of_lt h
  simp [get, h₁, h₂, h₃, h₄, h₅, h₆, h₇]

theorem set_of_lt {r : Register} (h : r.index.val < generalCount) :
    rf.set r v = { rf with general := rf.general.set r.index.val v h } := by
  obtain ⟨h₁, h₂, h₃, h₄, h₅, h₆, h₇⟩ := Register.ne_fixed_of_lt h
  simp [set, h₁, h₂, h₃, h₄, h₅, h₆, h₇]

end Dispatch

@[simp] theorem get_set_self (rf : RegisterFile) (r : Register) (v : UInt8) :
    (rf.set r v).get r = v := by
  rcases r.general_or_fixed with hr | rfl | rfl | rfl | rfl | rfl | rfl | rfl
  · simp [set_of_lt rf v hr, get_of_lt _ hr]
  all_goals rfl

theorem get_set_of_ne (rf : RegisterFile) {r s : Register} (h : r ≠ s) (v : UInt8) :
    (rf.set r v).get s = rf.get s := by
  have hs := Ne.symm h
  rcases r.general_or_fixed with hr | rfl | rfl | rfl | rfl | rfl | rfl | rfl
  · -- the write and the read reach different cells of the general array
    simp [set_of_lt rf v hr, get, Register.index_val_inj, h]
  -- a fixed-role register has a field of its own, which reading `s` never touches
  all_goals simp [set_addr, set_data, set_ramAddr, set_ramData, set_stack, set_overflow,
    set_input, get, hs]

/-- Reading a register after a write: the written register reads the new value, every
other register its old one. -/
theorem get_set (rf : RegisterFile) (r s : Register) (v : UInt8) :
    (rf.set r v).get s = if r = s then v else rf.get s := by
  by_cases h : r = s
  · subst h
    simp
  · simp [h, get_set_of_ne rf h]

@[simp] theorem get_zero (r : Register) : zero.get r = 0 := by
  rcases r.general_or_fixed with hr | rfl | rfl | rfl | rfl | rfl | rfl | rfl
  · simp [get_of_lt _ hr, zero]
  all_goals rfl

theorem getElem?_draw (rf : RegisterFile) {n k : Nat} (rs : List Register) (h : k < n) :
    (rf.draw n rs)[k]? = some ((rs[k]?.map rf.get).getD 0) := by
  induction n generalizing rs k with
  | zero => omega
  | succ n ih =>
    cases k with
    | zero => simp [draw, List.head?_eq_getElem?]
    | succ k => simp [draw, ih rs.tail (show k < n by omega)]

/-- Entry `r.index` of the snapshot is the value of `r`. -/
theorem getElem_array (rf : RegisterFile) (r : Register) : rf.array[r.index] = rf.get r := by
  have hr : Register.all[r.index.val]? = some r := by simp [Register.all]
  have h := rf.getElem?_draw Register.all r.index.isLt
  rw [hr] at h
  simpa [array, List.getElem_eq_iff] using h

/-- The flat view: the value of register `r` is entry `r.index` of `toList`. -/
theorem getElem?_toList (rf : RegisterFile) (r : Register) :
    rf.toList[r.index.val]? = some (rf.get r) := by
  simp [toList, ← getElem_array]

end RegisterFile

end ByteMachine
