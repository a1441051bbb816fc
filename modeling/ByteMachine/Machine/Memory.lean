import ByteMachine.Isa.Instruction
import ByteMachine.Numeral

/-!
# Memory banks

A memory bank is a row of `n ≥ 1` bytes. Single cells are addressed modulo
`n`, so every position names a cell. Blocks are not: a block from `start` of
`width` bytes must end at or before `n`, where the end is `start + width`
computed in 64-bit arithmetic that stops at its largest value instead of
wrapping. A block that does not fit is an error naming that end, and writing
it changes nothing.
-/

namespace ByteMachine

/-- A memory bank of at least one byte. -/
structure Memory where
  cells : Array UInt8
  size_pos : 0 < cells.size

namespace Memory

/-- A bank of `n` zero bytes. -/
def zeros (n : Nat) (h : 0 < n) : Memory :=
  ⟨Array.replicate n 0, by simpa using h⟩

def size (m : Memory) : Nat :=
  m.cells.size

/-- The cell at `pos`, taken modulo the size. -/
def load (m : Memory) (pos : Nat) : UInt8 :=
  have : pos % m.cells.size < m.cells.size := Nat.mod_lt _ m.size_pos
  m.cells[pos % m.cells.size]

/-- Stores `v` in the cell at `pos`, taken modulo the size. -/
def save (m : Memory) (pos : Nat) (v : UInt8) : Memory :=
  ⟨m.cells.setIfInBounds (pos % m.cells.size) v, by simpa using m.size_pos⟩

@[simp] theorem size_save (m : Memory) (pos : Nat) (v : UInt8) : (m.save pos v).size = m.size := by
  simp [save, size]

theorem load_save (m : Memory) (p q : Nat) (v : UInt8) :
    (m.save p v).load q = if p % m.size = q % m.size then v else m.load q := by
  simp only [load, save, size, Array.size_setIfInBounds]
  exact Array.getElem_setIfInBounds (Nat.mod_lt _ m.size_pos)

/-- The end of the block of `width` bytes from `start`, stopping at the largest
64-bit value. -/
def blockEnd (start width : Nat) : Nat :=
  min (start + width) Numeral.word64Max

/-- The block of `width` bytes from `start`. -/
def read (m : Memory) (start width : Nat) : Except Fault (List UInt8) :=
  let stop := blockEnd start width
  if stop ≤ m.size then .ok (m.cells.extract start stop).toList
  else .error (.ramOutOfBounds stop)

/-- Stores `data` in the cells from `pos` on, skipping cells past the end. -/
def writeFrom (cells : Array UInt8) (pos : Nat) : List UInt8 → Array UInt8
  | [] => cells
  | b :: rest => writeFrom (cells.setIfInBounds pos b) (pos + 1) rest

theorem size_writeFrom (cells : Array UInt8) (pos : Nat) (data : List UInt8) :
    (writeFrom cells pos data).size = cells.size := by
  induction data generalizing cells pos with
  | nil => rfl
  | cons b rest ih => simp [writeFrom, ih]

/-- Stores the block `data` from `start`, or fails, changing nothing, when it
does not fit. -/
def write (m : Memory) (start : Nat) (data : List UInt8) : Memory × Except Fault Unit :=
  let stop := blockEnd start data.length
  if stop ≤ m.size then
    (⟨writeFrom m.cells start data, by rw [size_writeFrom]; exact m.size_pos⟩, .ok ())
  else (m, .error (.ramOutOfBounds stop))

end Memory

end ByteMachine
