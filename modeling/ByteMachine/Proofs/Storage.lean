import ByteMachine.Proofs.Step

/-!
# Memory banks and the register file are arrays of bytes

Both stores of the machine are described by plain arrays of bytes, and both
are shown to behave as their array does.

A bank of `n` bytes is compared with an array `f : Fin n → UInt8` that the
calls on a bank act on as its description says: a single cell is addressed
modulo `n`, and a block must fit inside the array, where it is read or written
in one go, or else fail with the block's end, saturated at the largest 64-bit
value, and change nothing.

The main result, `Memory.zeros_performs_as_cells`, is that a new bank of
`n` zero bytes answers every sequence of calls as the all-zero array does, and
holds the array's contents after them. It rests on one lemma per call
(`Memory.Holds.perform`) and one induction over the sequence
(`performAll_related`). Inside its bounds a block read gives the cells one by
one (`Memory.read_of_le`) and a block write is the saves of its bytes in order
(`Memory.write_of_le`).

Banks are smaller than the largest 64-bit value, as every bank a machine can
allocate is: only then does a block that ends past the bank name an end past
the bank.
-/

namespace ByteMachine

namespace Memory

/-- A call on a memory bank: load the cell at a position, save a byte there, read
the block of `width` bytes from `start`, or write a block from `start`. -/
inductive Access where
  | load (pos : Nat)
  | save (pos : Nat) (v : UInt8)
  | read (start width : Nat)
  | write (start : Nat) (data : List UInt8)
  deriving Repr

/-- What a call on a memory bank answers: the byte a load gives, nothing for a
save, the block a read gives or its fault, and whether a write succeeded. -/
inductive Answer where
  | byte (v : UInt8)
  | saved
  | block (r : Except Fault (List UInt8))
  | written (r : Except Fault Unit)

/-- Carries out calls one after another from `s`, collecting the answers. -/
def performAll {σ : Type} (perform : σ → Access → σ × Answer) (s : σ) : List Access → σ × List Answer
  | [] => (s, [])
  | a :: rest =>
    let next := performAll perform (perform s a).1 rest
    (next.1, (perform s a).2 :: next.2)

/-- Two states that every call keeps related, with equal answers, stay related
along any sequence of calls, with equal answers. -/
theorem performAll_related {σ τ : Type} {p : σ → Access → σ × Answer}
    {q : τ → Access → τ × Answer} (R : σ → τ → Prop)
    (hstep : ∀ s t a, R s t → R (p s a).1 (q t a).1 ∧ (p s a).2 = (q t a).2) :
    ∀ (calls : List Access) (s : σ) (t : τ), R s t →
      R (performAll p s calls).1 (performAll q t calls).1 ∧
        (performAll p s calls).2 = (performAll q t calls).2
  | [], s, t, h => ⟨h, rfl⟩
  | a :: rest, s, t, h => by
    obtain ⟨hr, ha⟩ := hstep s t a h
    obtain ⟨hr', hrest⟩ := performAll_related R hstep rest _ _ hr
    exact ⟨hr', by simp only [performAll, ha, hrest]⟩

end Memory

/-! ## The array a bank describes -/

namespace Cells

open Memory (Access Answer)

variable {n : Nat}

/-- The cell at `pos`, taken modulo `n`. -/
def load [NeZero n] (f : Fin n → UInt8) (pos : Nat) : UInt8 :=
  f (Fin.ofNat n pos)

/-- The array with the cell at `pos`, taken modulo `n`, set to `v`. -/
def save [NeZero n] (f : Fin n → UInt8) (pos : Nat) (v : UInt8) : Fin n → UInt8 :=
  fun j => if j = Fin.ofNat n pos then v else f j

/-- The cells `start`, …, `start + width - 1` when they all exist, or the fault
naming the saturated end of the block. -/
def read (f : Fin n → UInt8) (start width : Nat) : Except Fault (List UInt8) :=
  if h : start + width ≤ n then .ok (List.ofFn fun i : Fin width => f ⟨start + i, by omega⟩)
  else .error (.ramOutOfBounds (min (start + width) Numeral.word64Max))

/-- The array with `data` from `start` on when it fits, or the array itself and
the fault naming the saturated end of the block. -/
def write (f : Fin n → UInt8) (start : Nat) (data : List UInt8) :
    (Fin n → UInt8) × Except Fault Unit :=
  if start + data.length ≤ n then
    (fun j => if h : start ≤ j.val ∧ j.val < start + data.length then data[j.val - start] else f j,
      .ok ())
  else (f, .error (.ramOutOfBounds (min (start + data.length) Numeral.word64Max)))

def perform [NeZero n] (f : Fin n → UInt8) : Access → (Fin n → UInt8) × Answer
  | .load p => (f, .byte (load f p))
  | .save p v => (save f p v, .saved)
  | .read s w => (f, .block (read f s w))
  | .write s d => ((write f s d).1, .written (write f s d).2)

end Cells

namespace Memory

def perform (m : Memory) : Access → Memory × Answer
  | .load p => (m, .byte (m.load p))
  | .save p v => (m.save p v, .saved)
  | .read s w => (m, .block (m.read s w))
  | .write s d => ((m.write s d).1, .written (m.write s d).2)

/-! ## Cells of a bank -/

theorem load_of_lt (m : Memory) {i : Nat} (h : i < m.cells.size) : m.load i = m.cells[i] := by
  simp only [load, Nat.mod_eq_of_lt h]

theorem getElem?_cells (m : Memory) {i : Nat} (h : i < m.cells.size) :
    m.cells[i]? = some (m.load i) := by
  rw [load_of_lt m h, Array.getElem?_eq_getElem]

theorem load_mod (m : Memory) (p : Nat) : m.load (p % m.size) = m.load p := by
  simp only [load, size, Nat.mod_mod]

/-- Writing stores the data from `pos` on, inside the cells, and leaves every
other cell. -/
theorem getElem?_writeFrom (cells : Array UInt8) (pos : Nat) (data : List UInt8) (j : Nat) :
    (writeFrom cells pos data)[j]? =
      if pos ≤ j ∧ j < pos + data.length ∧ j < cells.size then data[j - pos]? else cells[j]? := by
  induction data generalizing cells pos with
  | nil => rw [writeFrom, if_neg (by simp only [List.length_nil]; omega)]
  | cons b rest ih =>
    rw [writeFrom, ih, Array.size_setIfInBounds, Array.getElem?_setIfInBounds]
    by_cases hp : j = pos
    · subst hp
      by_cases hj : j < cells.size <;> simp [hj]
    · have hsub : pos ≤ j → j - pos = (j - (pos + 1)) + 1 := by omega
      by_cases hin : pos + 1 ≤ j ∧ j < pos + 1 + rest.length ∧ j < cells.size
      · have hin' : pos ≤ j ∧ j < pos + (b :: rest).length ∧ j < cells.size := by
          simp only [List.length_cons]; omega
        rw [if_pos hin, if_pos hin', hsub hin'.1, List.getElem?_cons_succ]
      · have hout : ¬(pos ≤ j ∧ j < pos + (b :: rest).length ∧ j < cells.size) := by
          simp only [List.length_cons]; omega
        rw [if_neg hin, if_neg hout, if_neg (Ne.symm hp)]

theorem blockEnd_of_le {start width : Nat} (h : start + width ≤ Numeral.word64Max) :
    blockEnd start width = start + width :=
  Nat.min_eq_left h

/-- In a bank smaller than the largest 64-bit value, a block fits exactly when
its end, counted without saturation, does. -/
theorem blockEnd_le_iff {n start width : Nat} (hn : n < Numeral.word64Max) :
    blockEnd start width ≤ n ↔ start + width ≤ n := by
  simp only [blockEnd]
  omega

/-- Inside the bank, a block read gives the cells one by one. -/
theorem read_of_le (m : Memory) (hm : m.size ≤ Numeral.word64Max) {start width : Nat}
    (h : start + width ≤ m.size) :
    m.read start width = .ok (List.ofFn fun i : Fin width => m.load (start + i)) := by
  have hend := blockEnd_of_le (h.trans hm)
  simp only [read, hend, if_pos h, Except.ok.injEq]
  apply List.ext_getElem
  · simp only [Array.length_toList, Array.size_extract, List.length_ofFn, size] at h ⊢
    omega
  · intro i hi _
    simp only [Array.getElem_toList, Array.getElem_extract, List.getElem_ofFn]
    exact (m.load_of_lt (by simp only [Array.length_toList, Array.size_extract, size] at hi h; omega)).symm

@[ext] theorem ext {m m' : Memory} (h : m.cells = m'.cells) : m = m' := by
  cases m
  cases m'
  simp only [mk.injEq]
  exact h

/-- Saving a byte at each position from `start` on writes the block there. -/
theorem cells_foldl_save :
    ∀ (data : List UInt8) (m : Memory) (start : Nat), start + data.length ≤ m.size →
      ((data.zipIdx start).foldl (fun m p => m.save p.2 p.1) m).cells = writeFrom m.cells start data
  | [], m, start, _ => rfl
  | b :: rest, m, start, h => by
    have hstart : start % m.cells.size = start := Nat.mod_eq_of_lt (by simp only [List.length_cons, size] at h; omega)
    rw [List.zipIdx_cons, List.foldl_cons,
      cells_foldl_save rest (m.save start b) (start + 1) (by simp only [List.length_cons, size_save] at h ⊢; omega)]
    simp only [save, hstart, writeFrom]

/-- Inside the bank, a block write is the saves of its bytes, in order. -/
theorem write_of_le (m : Memory) (hm : m.size ≤ Numeral.word64Max) {start : Nat} {data : List UInt8}
    (h : start + data.length ≤ m.size) :
    m.write start data = ((data.zipIdx start).foldl (fun m p => m.save p.2 p.1) m, .ok ()) := by
  have hend := blockEnd_of_le (h.trans hm)
  simp only [write, hend, if_pos h, Prod.mk.injEq, and_true]
  ext1
  exact (cells_foldl_save data m start h).symm

/-! ## Banks that hold an array -/

section Holds

variable {n : Nat}

/-- A bank holds the array `f`: it has `n` cells, and its cell `i` is `f i`. -/
structure Holds (m : Memory) (f : Fin n → UInt8) : Prop where
  size_eq : m.size = n
  load_eq : ∀ i : Fin n, m.load i = f i

variable {m : Memory} {f : Fin n → UInt8}

theorem Holds.load [NeZero n] (hold : m.Holds f) (p : Nat) : m.load p = Cells.load f p := by
  have hp : p % n < n := Nat.mod_lt _ (Nat.pos_of_neZero n)
  rw [← load_mod, hold.size_eq, hold.load_eq ⟨p % n, hp⟩]
  rfl

theorem Holds.save [NeZero n] (hold : m.Holds f) (p : Nat) (v : UInt8) : (m.save p v).Holds (Cells.save f p v) := by
  refine ⟨by rw [size_save, hold.size_eq], fun i => ?_⟩
  have hi : i.val % n = i.val := Nat.mod_eq_of_lt i.isLt
  have hcell : p % n = i.val ↔ i = Fin.ofNat n p := by
    rw [Fin.ext_iff, Fin.val_ofNat]
    exact eq_comm
  rw [load_save, hold.size_eq, hi, Cells.save]
  by_cases he : i = Fin.ofNat n p
  · rw [if_pos (hcell.2 he), if_pos he]
  · rw [if_neg (mt hcell.1 he), if_neg he, hold.load_eq]

variable (hn : n < Numeral.word64Max)
include hn

theorem Holds.read (hold : m.Holds f) (start width : Nat) :
    m.read start width = Cells.read f start width := by
  by_cases h : start + width ≤ n
  · rw [read_of_le m (by rw [hold.size_eq]; omega) (by rw [hold.size_eq]; exact h), Cells.read,
      dif_pos h]
    congr 2
    funext i
    exact hold.load_eq ⟨start + i, by omega⟩
  · rw [Memory.read, Cells.read, dif_neg h, if_neg (by rw [hold.size_eq, blockEnd_le_iff hn]; exact h)]
    rfl

theorem Holds.write (hold : m.Holds f) (start : Nat) (data : List UInt8) :
    (m.write start data).1.Holds (Cells.write f start data).1 ∧
      (m.write start data).2 = (Cells.write f start data).2 := by
  by_cases h : start + data.length ≤ n
  · have hfit : blockEnd start data.length ≤ m.size := by rw [hold.size_eq, blockEnd_le_iff hn]; exact h
    have hi : ∀ i : Fin n, i.val < m.cells.size := fun i => (hold.size_eq ▸ i.isLt : i.val < m.size)
    simp only [Memory.write, if_pos hfit, Cells.write, if_pos h, and_true]
    refine ⟨by simp only [size, size_writeFrom]; exact hold.size_eq, fun i => Option.some.inj ?_⟩
    rw [← getElem?_cells _ (by simpa only [size, size_writeFrom] using hi i), getElem?_writeFrom]
    split
    · rename_i hin
      rw [dif_pos ⟨hin.1, hin.2.1⟩, List.getElem?_eq_getElem]
    · rename_i hout
      rw [dif_neg fun h' => hout ⟨h'.1, h'.2, hi i⟩, getElem?_cells m (hi i), hold.load_eq]
  · have hfit : ¬blockEnd start data.length ≤ m.size := by rw [hold.size_eq, blockEnd_le_iff hn]; exact h
    simp only [Memory.write, if_neg hfit, Cells.write, if_neg h]
    exact ⟨hold, rfl⟩

/-- Every call keeps a bank holding the array the call leaves, with the same answer. -/
theorem Holds.perform [NeZero n] (hold : m.Holds f) (a : Access) :
    (m.perform a).1.Holds (Cells.perform f a).1 ∧ (m.perform a).2 = (Cells.perform f a).2 := by
  cases a with
  | load p => exact ⟨hold, by rw [Memory.perform, Cells.perform, hold.load p]⟩
  | save p v => exact ⟨hold.save p v, rfl⟩
  | read s w => exact ⟨hold, by rw [Memory.perform, Cells.perform, hold.read hn s w]⟩
  | write s d =>
    obtain ⟨hw, he⟩ := hold.write hn s d
    exact ⟨hw, by rw [Memory.perform, Cells.perform, he]⟩

end Holds

theorem zeros_holds (n : Nat) [NeZero n] : (zeros n (Nat.pos_of_neZero n)).Holds fun _ : Fin n => 0 := by
  refine ⟨by simp [zeros, size], fun i => ?_⟩
  rw [load_of_lt _ (by simp [zeros])]
  simp [zeros]

/-- A new bank of `n` zero bytes behaves as an array of `n` bytes that starts
all zero: along every sequence of loads, saves, block reads and block writes it
gives the array's answers, keeps `n` cells and holds the array's contents.
Inside its bounds a block read gives the cells one by one, and a block write is
the saves of its bytes in order. -/
theorem zeros_performs_as_cells (n : Nat) [NeZero n] (hn : n < Numeral.word64Max)
    (calls : List Access) :
    (performAll perform (zeros n (Nat.pos_of_neZero n)) calls).2 =
        (performAll Cells.perform (fun _ : Fin n => 0) calls).2 ∧
      (performAll perform (zeros n (Nat.pos_of_neZero n)) calls).1.Holds
        (performAll Cells.perform (fun _ : Fin n => 0) calls).1 ∧
      (∀ m : Memory, m.size ≤ Numeral.word64Max → ∀ start width, start + width ≤ m.size →
        m.read start width = .ok (List.ofFn fun i : Fin width => m.load (start + i))) ∧
      (∀ m : Memory, m.size ≤ Numeral.word64Max → ∀ start (data : List UInt8),
        start + data.length ≤ m.size →
          m.write start data = ((data.zipIdx start).foldl (fun m p => m.save p.2 p.1) m, .ok ())) := by
  obtain ⟨hold, hanswers⟩ :=
    performAll_related Holds (fun _ _ a hold => hold.perform hn a) calls _ _ (zeros_holds n)
  exact ⟨hanswers, hold, fun m hm _ _ h => m.read_of_le hm h, fun m hm _ _ h => m.write_of_le hm h⟩

example : ((zeros 8 (by decide)).write 2 [1, 2, 3]).1.read 0 6 = .ok [0, 0, 1, 2, 3, 0] := by decide

example : ((zeros 8 (by decide)).write 7 [1, 2]).2 = .error (.ramOutOfBounds 9) := by decide

/-- A bank of eight bytes: a block written from 2 and read back, a read and a
write that run past the end, and a save far out that lands on cell 3. -/
theorem eight_bytes_perform_as_cells :
    let calls := [Access.write 2 [1, 2, 3], .read 0 6, .read 6 4, .write 7 [1, 2], .save 259 0xAB,
      .load 3]
    8 < Numeral.word64Max ∧
      (performAll perform (zeros 8 (Nat.pos_of_neZero 8)) calls).2 =
          (performAll Cells.perform (fun _ : Fin 8 => 0) calls).2 ∧
        (performAll perform (zeros 8 (Nat.pos_of_neZero 8)) calls).1.Holds
          (performAll Cells.perform (fun _ : Fin 8 => 0) calls).1 ∧
        (∀ m : Memory, m.size ≤ Numeral.word64Max → ∀ start width, start + width ≤ m.size →
          m.read start width = .ok (List.ofFn fun i : Fin width => m.load (start + i))) ∧
        (∀ m : Memory, m.size ≤ Numeral.word64Max → ∀ start (data : List UInt8),
          start + data.length ≤ m.size →
            m.write start data = ((data.zipIdx start).foldl (fun m p => m.save p.2 p.1) m, .ok ())) :=
  ⟨by decide, zeros_performs_as_cells 8 (by decide) _⟩

end Memory

end ByteMachine

/-!
## The register file as a flat array

The register file keeps the general-purpose registers in an array and the others
in named fields, and reads and writes them through two separate dispatches. Seen
through its snapshot `array` it is one flat array of fifteen bytes indexed by
register: a write replaces the written register's entry and no other, a read is
the entry at the register's index, and clearing zeroes every entry. So no two
registers share a place and no write is lost.
-/

namespace ByteMachine.RegisterFile

/-- A write replaces the written register's entry of the snapshot and no other. -/
theorem array_set (rf : RegisterFile) (r : Register) (v : UInt8) :
    (rf.set r v).array = rf.array.set r.index.val v r.index.isLt := by
  apply Vector.ext
  intro k hk
  let s : Register := ⟨⟨k, hk⟩⟩
  have hs : r = s ↔ r.index.val = k := by simp [s, ← Register.index_val_inj]
  calc (rf.set r v).array[k] = (rf.set r v).get s := getElem_array _ s
    _ = if r = s then v else rf.get s := get_set rf r s v
    _ = (rf.array.set r.index.val v r.index.isLt)[k] := by
      simp [Vector.getElem_set, hs, ← getElem_array rf s, s]

/-- Clearing zeroes every entry of the snapshot. -/
theorem array_clear (rf : RegisterFile) : rf.clear.array = Vector.replicate 15 0 := by
  apply Vector.ext
  intro k hk
  simpa using getElem_array zero ⟨⟨k, hk⟩⟩

/-- The register file refines a flat array of fifteen bytes indexed by register: a
write replaces exactly the register's entry, a read is the register's entry, and
clearing zeroes the array. In particular a write is read back from the written
register and from no other. -/
theorem behaves_as_flat_array (rf : RegisterFile) :
    (∀ r v, (rf.set r v).array = rf.array.set r.index.val v r.index.isLt) ∧
    (∀ r, rf.get r = rf.array.get r.index) ∧
    rf.clear.array = Vector.replicate 15 0 ∧
    (∀ r s v, (rf.set r v).get s = if r = s then v else rf.get s) :=
  ⟨array_set rf, fun r => (getElem_array rf r).symm, array_clear rf, get_set rf⟩

example : (zero.set .stack 7).toList = [0, 0, 0, 0, 0, 0, 0, 0, 0, 0, 0, 0, 7, 0, 0] := by
  decide

end ByteMachine.RegisterFile
