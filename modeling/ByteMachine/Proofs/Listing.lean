import Mathlib.Algebra.GroupWithZero.Nat
import Mathlib.Data.List.Chain
import Mathlib.Data.List.DropRight
import ByteMachine.Listing

/-!
# Listings tile their code

A listing reads a code image from its start, with one entry per instruction and
one entry per byte that is no opcode. This module shows that the walk reads the
image faithfully.

* `walk_flatMap_encode`: listing the encodings of any list of instructions gives
  the instructions back, each at the sum of the widths before it. In particular
  an instruction decodes from its own encoding.
* `walk_tiles`: the walk over any image has at most one entry per byte, starts at
  offset zero and moves on by each entry's width, and its only errors are
  unknown opcodes. Written out again, its entries give the image back, followed
  by the zero bytes that the last instruction read past the end: fewer than the
  widest instruction takes.
* `walkFrom_append_zeros`: zero bytes after an image only add `NOP` entries after
  its walk. So the walk over an image is the walk over the image trimmed of its
  trailing zeros followed by a `NOP` at each offset left
  (`walk_eq_walk_trim_append_padding`).

Decoding reads the opcode at an offset and the bytes after it, a byte past the
end read as zero, and encoding writes those bytes back (`encode_of_decodeAt`).
Each walk lemma is an induction that follows the recursion of `walkFrom`.
-/
namespace ByteMachine

namespace Kind

/-- The kind found for a byte has that byte as its opcode. -/
theorem opcode_of_ofOpcode? {b : UInt8} {k : Kind} (h : ofOpcode? b = some k) : k.opcode = b := by
  simpa using List.find?_some h

@[simp] theorem ofOpcode?_zero : ofOpcode? 0 = some .nop := rfl

end Kind

namespace Instruction

@[simp] theorem length_encode (i : Instruction) : i.encode.length = i.width := by
  simp [encode, width, i.length_operands, Kind.width_eq_succ_arity]

theorem one_le_width (i : Instruction) : 1 ≤ i.width := by
  simp [width, Kind.width_eq_succ_arity]

@[simp] theorem width_new_nop : (new .nop).width = 1 := rfl

/-! ## Decoding one instruction -/

/-- Decoding fails when the position is outside the code, or when the byte there
is no opcode. -/
theorem decodeAt_eq_error_iff (code : Array UInt8) (pos : Nat) (d : DecodeError) :
    decodeAt code pos = .error d ↔
      (code[pos]? = none ∧ d = .romOutOfBounds pos) ∨
      ∃ b, code[pos]? = some b ∧ Kind.ofOpcode? b = none ∧ d = .unknownOpcode b := by
  unfold decodeAt
  split
  · rename_i h
    simp only [h, Except.error.injEq, true_and, reduceCtorEq, false_and, exists_false, or_false]
    exact eq_comm
  · rename_i b h
    split
    · rename_i hk
      simp only [h, hk, Except.error.injEq, reduceCtorEq, false_and, Option.some.injEq, true_and,
        exists_eq_left', false_or]
      exact eq_comm
    · rename_i k hk
      simp [h, hk]

/-- An instruction decodes only from a position inside the code. -/
theorem lt_of_decodeAt_eq_ok {code : Array UInt8} {pos : Nat} {i : Instruction}
    (h : decodeAt code pos = .ok i) : pos < code.size := by
  by_contra hle
  have hd : decodeAt code pos = .error (.romOutOfBounds pos) :=
    (decodeAt_eq_error_iff code pos _).2 (.inl ⟨Array.getElem?_eq_none (Nat.le_of_not_lt hle), rfl⟩)
  rw [hd] at h
  cases h

/-- Inside the code, decoding fails only on a byte that is no opcode. -/
theorem decodeAt_eq_error_iff_of_lt {code : Array UInt8} {pos : Nat} (h : pos < code.size)
    (d : DecodeError) :
    decodeAt code pos = .error d ↔
      Kind.ofOpcode? (code[pos]?.getD 0) = none ∧ d = .unknownOpcode (code[pos]?.getD 0) := by
  rw [decodeAt_eq_error_iff, Array.getElem?_eq_getElem h]
  simp

/-- Decoding reads only the byte at the position and the bytes after it, each
one past the end read as zero. -/
theorem decodeAt_congr {code code' : Array UInt8} {pos : Nat} (h₀ : code[pos]? = code'[pos]?)
    (h : ∀ q : Nat, code[q]?.getD 0 = code'[q]?.getD 0) :
    decodeAt code pos = decodeAt code' pos := by
  simp only [decodeAt, h₀, h]

/-- A zero byte decodes as `NOP`. -/
theorem decodeAt_of_zero {code : Array UInt8} {pos : Nat} (h : code[pos]? = some 0) :
    decodeAt code pos = .ok (new .nop) := by
  simp only [decodeAt, h, Kind.ofOpcode?_zero]
  rfl

/-- Encoding gives back the bytes that decoding read: the opcode, then the
operand bytes, each one past the end of the code read as zero. -/
theorem encode_of_decodeAt {code : Array UInt8} {pos : Nat} {i : Instruction}
    (h : decodeAt code pos = .ok i) :
    i.encode = (List.range i.width).map fun j => code[pos + j]?.getD 0 := by
  unfold decodeAt at h
  split at h
  · cases h
  rename_i b hb
  split at h
  · cases h
  rename_i k hk
  cases h
  have hops : fit k.arity ((List.range k.arity).map fun j => code[pos + 1 + j]?.getD 0) =
      (List.range k.arity).map fun j => code[pos + 1 + j]?.getD 0 :=
    fit_of_length_eq (by simp)
  simp only [encode, withOperands, width, hops, Kind.width_eq_succ_arity, List.range_succ_eq_map,
    List.map_cons, List.map_map, Nat.add_zero, hb, Option.getD_some, Kind.opcode_of_ofOpcode? hk]
  congr 2
  funext j
  simp only [Function.comp_apply, Nat.add_assoc, Nat.add_comm 1 j]

/-- An instruction decodes from its encoding, whatever stands before and after it. -/
theorem decodeAt_append_encode (pre post : List UInt8) (i : Instruction) :
    decodeAt (pre ++ (i.encode ++ post)).toArray pre.length = .ok i := by
  have hop : (pre ++ (i.encode ++ post)).toArray[pre.length]? = some i.kind.opcode := by
    simp [encode]
  have hops : ((List.range i.kind.arity).map fun j =>
      (pre ++ (i.encode ++ post)).toArray[pre.length + 1 + j]?.getD 0) = i.operands := by
    apply List.ext_getElem
    · simp [i.length_operands]
    · intro j h₁ h₂
      have hj : j < i.operands.length := by simpa using h₂
      simp [encode, List.getElem?_append_right, Nat.add_assoc, Nat.add_comm 1 j,
        List.getElem?_append_left hj, List.getElem?_eq_getElem hj]
  simp only [decodeAt, hop, Kind.ofOpcode?_opcode, hops, withOperands_operands]

end Instruction

namespace Listing

open Instruction

/-! ## One entry of a walk -/

@[simp] theorem advance_ok (i : Instruction) : advance (.ok i) = i.width := rfl

@[simp] theorem advance_error (e : DecodeError) : advance (.error e) = 1 := rfl

theorem advance_le_maxWidth (d : Except DecodeError Instruction) : advance d ≤ Kind.maxWidth := by
  cases d with
  | ok i => exact Kind.width_le_maxWidth i.kind
  | error e => simp [Kind.maxWidth]

section Walk

variable {code : Array UInt8} {pos : Nat}

theorem walkFrom_of_lt (h : pos < code.size) :
    walkFrom code pos =
      (pos, decodeAt code pos) :: walkFrom code (pos + advance (decodeAt code pos)) := by
  rw [walkFrom, dif_pos h]

theorem walkFrom_of_le (h : code.size ≤ pos) : walkFrom code pos = [] := by
  rw [walkFrom, dif_neg (Nat.not_lt.2 h)]

theorem endFrom_of_lt (h : pos < code.size) :
    endFrom code pos = endFrom code (pos + advance (decodeAt code pos)) := by
  rw [endFrom, dif_pos h]

theorem endFrom_of_le (h : code.size ≤ pos) : endFrom code pos = pos := by
  rw [endFrom, dif_neg (Nat.not_lt.2 h)]

end Walk

/-! ## Listing encoded instructions -/

/-- The walk over encoded instructions, entered at the first of them, lists
each one at the offset where its encoding starts. -/
theorem walkFrom_append_flatMap_encode (pre : List UInt8) (L : List Instruction) :
    walkFrom (pre ++ L.flatMap encode).toArray pre.length =
      L.mapIdx fun j i => (pre.length + ((L.take j).map width).sum, .ok i) := by
  induction L generalizing pre with
  | nil => exact walkFrom_of_le (by simp)
  | cons i L ih =>
    have hlt : pre.length < (pre ++ (i :: L).flatMap encode).toArray.size := by
      have := one_le_width i
      simp
      omega
    have hd : decodeAt (pre ++ (i :: L).flatMap encode).toArray pre.length = .ok i := by
      rw [List.flatMap_cons]
      exact decodeAt_append_encode pre _ i
    have hrest := ih (pre ++ i.encode)
    rw [List.append_assoc, ← List.flatMap_cons, List.length_append, length_encode] at hrest
    rw [walkFrom_of_lt hlt, hd, advance_ok, hrest, List.mapIdx_cons]
    simp [Nat.add_assoc]

/-- Listing the encodings of instructions gives each instruction back at the sum
of the widths before it; in particular every instruction decodes from its own
encoding. -/
theorem walk_flatMap_encode :
    (∀ L : List Instruction, walk (L.flatMap encode).toArray =
      L.mapIdx fun j i => (((L.take j).map width).sum, .ok i)) ∧
    ∀ i : Instruction, decodeAt i.encode.toArray 0 = .ok i := by
  refine ⟨fun L => ?_, fun i => ?_⟩
  · simpa [walk] using walkFrom_append_flatMap_encode [] L
  · simpa using decodeAt_append_encode [] [] i

/-! ## The walk over any image -/

/-- The bytes an entry stands for: the encoding of its instruction, or the one
byte at its offset that is no opcode. -/
def entryBytes (code : Array UInt8) (e : Nat × Except DecodeError Instruction) : List UInt8 :=
  match e.2 with
  | .ok i => i.encode
  | .error _ => [code[e.1]?.getD 0]

/-- The `w` bytes from `pos`, each one past the end read as zero, are what is left
of the code from `pos` on, cut to `w` bytes and padded with zeros. -/
theorem map_range_getD (code : Array UInt8) {pos : Nat} (w : Nat) (h : pos ≤ code.size) :
    (List.range w).map (fun j => code[pos + j]?.getD 0) =
      (code.toList.drop pos).take w ++ List.replicate (pos + w - code.size) 0 := by
  apply List.ext_getElem
  · simp only [List.length_map, List.length_range, List.length_append, List.length_take,
      List.length_drop, Array.length_toList, List.length_replicate]
    omega
  · intro j h₁ h₂
    have hjw : j < w := by simpa using h₁
    simp only [List.getElem_map, List.getElem_range]
    by_cases hj : pos + j < code.size
    · rw [List.getElem_append_left (by simp; omega)]
      simp [Array.getElem?_eq_getElem hj]
    · rw [List.getElem_append_right (by simp; omega)]
      simp [Array.getElem?_eq_none (Nat.le_of_not_lt hj)]

section Walk

variable {code : Array UInt8} {pos : Nat}

theorem length_walkFrom_le (code : Array UInt8) (pos : Nat) :
    (walkFrom code pos).length ≤ code.size - pos := by
  fun_induction walkFrom code pos with
  | case1 pos h d ih =>
    have := one_le_advance d
    simp only [List.length_cons]
    omega
  | case2 => simp

/-- Every entry lies inside the code, at or after where the walk was entered,
and holds the decoding at its offset. -/
theorem mem_walkFrom {e : Nat × Except DecodeError Instruction} (he : e ∈ walkFrom code pos) :
    pos ≤ e.1 ∧ e.1 < code.size ∧ e.2 = decodeAt code e.1 := by
  fun_induction walkFrom code pos with
  | case1 pos h d ih =>
    rcases List.mem_cons.1 he with rfl | he
    · exact ⟨le_rfl, h, rfl⟩
    · have hrest := ih he
      have := one_le_advance d
      exact ⟨by omega, hrest.2⟩
  | case2 => simp at he

/-- A walk starts where it was entered. -/
theorem fst_of_mem_head?_walkFrom {e : Nat × Except DecodeError Instruction}
    (he : e ∈ (walkFrom code pos).head?) : e.1 = pos := by
  by_cases h : pos < code.size
  · rw [walkFrom_of_lt h] at he
    cases he
    rfl
  · rw [walkFrom_of_le (Nat.le_of_not_lt h)] at he
    cases he

/-- The offset of a walk's first entry, or where the walk stops when it has none,
is where the walk was entered. -/
theorem getD_fst_head_walkFrom (code : Array UInt8) (pos : Nat) :
    ((walkFrom code pos)[0]?.map Prod.fst).getD (endFrom code pos) = pos := by
  by_cases h : pos < code.size
  · simp [walkFrom_of_lt h]
  · simp [walkFrom_of_le (Nat.le_of_not_lt h), endFrom_of_le (Nat.le_of_not_lt h)]

/-- Each entry is the one before it moved on by that entry's width, or by one byte
for a byte that is no opcode. -/
theorem isChain_walkFrom (code : Array UInt8) (pos : Nat) :
    (walkFrom code pos).IsChain (fun a b => b.1 = a.1 + advance a.2) := by
  fun_induction walkFrom code pos with
  | case1 pos h d ih =>
    refine List.isChain_cons.2 ⟨fun e he => ?_, ih⟩
    exact fst_of_mem_head?_walkFrom he
  | case2 => exact .nil

theorem size_le_endFrom (code : Array UInt8) (pos : Nat) : code.size ≤ endFrom code pos := by
  fun_induction endFrom code pos with
  | case1 pos h ih => exact ih
  | case2 pos h => exact Nat.le_of_not_lt h

/-- The walk stops less than the widest instruction past the end of the code. -/
theorem endFrom_lt (h : pos < code.size + Kind.maxWidth) :
    endFrom code pos < code.size + Kind.maxWidth := by
  fun_induction endFrom code pos with
  | case1 pos hlt ih =>
    have := advance_le_maxWidth (decodeAt code pos)
    exact ih (by omega)
  | case2 => exact h

/-- Writing out the entries of a walk entered inside the code gives the code from
there on, followed by the zero bytes that its last instruction read past the end. -/
theorem flatMap_entryBytes_walkFrom (h : pos ≤ code.size) :
    (walkFrom code pos).flatMap (entryBytes code) =
      code.toList.drop pos ++ List.replicate (endFrom code pos - code.size) 0 := by
  fun_induction walkFrom code pos with
  | case1 pos hlt d ih =>
    simp only [d] at ih ⊢
    rw [List.flatMap_cons, endFrom_of_lt hlt]
    rcases hd : decodeAt code pos with e | i
    · -- a byte that is no opcode stands for itself
      simp only [hd, advance_error] at ih ⊢
      have hdrop : code.toList.drop pos = code[pos] :: code.toList.drop (pos + 1) :=
        List.drop_eq_getElem_cons (by simpa using hlt)
      rw [hdrop, ih (by omega)]
      simp [entryBytes, Array.getElem?_eq_getElem hlt]
    · -- an instruction stands for its bytes, read as zero past the end
      have hbytes : entryBytes code (pos, .ok i) =
          (code.toList.drop pos).take i.width ++
            List.replicate (pos + i.width - code.size) 0 := by
        simp only [entryBytes]
        rw [encode_of_decodeAt hd, map_range_getD code i.width h]
      simp only [hd, advance_ok] at ih ⊢
      rw [hbytes]
      by_cases hw : pos + i.width ≤ code.size
      · rw [ih hw, Nat.sub_eq_zero_of_le hw, List.replicate_zero, List.append_nil,
          ← List.append_assoc, ← List.drop_drop, List.take_append_drop]
      · -- the last instruction runs past the end of the code
        have hend : code.size ≤ pos + i.width := by omega
        rw [walkFrom_of_le hend, endFrom_of_le hend, List.flatMap_nil, List.append_nil,
          List.take_of_length_le (by simp; omega)]
  | case2 pos hle =>
    have hpos : pos = code.size := by omega
    subst hpos
    simp [endFrom_of_le le_rfl]

end Walk

/-- The walk over any image tiles it: at most one entry per byte, offsets that
start at zero and move on by each entry's width, errors only on bytes that are
no opcode, and entries that, written out again, give the image back followed by
fewer zero bytes than the widest instruction takes. -/
theorem walk_tiles (code : Array UInt8) :
    (walk code).length ≤ code.size ∧
    (0 < code.size → (walk code).head?.map Prod.fst = some 0) ∧
    (∀ e ∈ walk code, e.1 < code.size ∧ ∀ d, e.2 = .error d ↔
      Kind.ofOpcode? (code[e.1]?.getD 0) = none ∧ d = .unknownOpcode (code[e.1]?.getD 0)) ∧
    (walk code).IsChain (fun a b => b.1 = a.1 + advance a.2) ∧
    (walk code).flatMap (entryBytes code) =
      code.toList ++ List.replicate (walkEnd code - code.size) 0 ∧
    code.size ≤ walkEnd code ∧ walkEnd code - code.size < Kind.maxWidth := by
  have hend : endFrom code 0 < code.size + Kind.maxWidth := endFrom_lt (by simp [Kind.maxWidth])
  refine ⟨by simpa [walk] using length_walkFrom_le code 0, fun h => ?_, fun e he => ?_,
    isChain_walkFrom code 0,
    by simpa [walk, walkEnd] using flatMap_entryBytes_walkFrom (Nat.zero_le code.size),
    size_le_endFrom code 0, by simp only [walkEnd, Kind.maxWidth] at hend ⊢; omega⟩
  · simp [walk, walkFrom_of_lt h]
  · obtain ⟨-, hlt, hd⟩ := mem_walkFrom he
    refine ⟨hlt, fun d => ?_⟩
    rw [hd]
    exact decodeAt_eq_error_iff_of_lt hlt d

/-! ## Zero bytes after the code -/

/-- The entries of a `NOP` at every offset from `start` below `stop`. -/
def padding (start stop : Nat) : List (Nat × Except DecodeError Instruction) :=
  (List.range' start (stop - start)).map fun o => (o, .ok (new .nop))

theorem padding_of_lt {start stop : Nat} (h : start < stop) :
    padding start stop = (start, .ok (new .nop)) :: padding (start + 1) stop := by
  have hn : stop - start = (stop - (start + 1)) + 1 := by omega
  rw [padding, hn, List.range'_succ, List.map_cons, padding]

theorem padding_of_le {start stop : Nat} (h : stop ≤ start) : padding start stop = [] := by
  simp [padding, Nat.sub_eq_zero_of_le h]

section Zeros

variable {code : Array UInt8} {pos : Nat}

/-- From a position on which every byte is zero, the walk is all `NOP`s. -/
theorem walkFrom_of_zeros (hz : ∀ q, pos ≤ q → q < code.size → code[q]? = some 0) :
    walkFrom code pos = padding pos code.size := by
  fun_induction walkFrom code pos with
  | case1 pos h d ih =>
    have hd : d = .ok (new .nop) := decodeAt_of_zero (hz pos le_rfl h)
    have hadv : pos + advance d = pos + 1 := by rw [hd]; rfl
    rw [hadv] at ih ⊢
    rw [ih (fun q hq => hz q (by omega)), padding_of_lt h, hd]
  | case2 pos h => exact (padding_of_le (Nat.le_of_not_lt h)).symm

theorem endFrom_of_zeros (hz : ∀ q, pos ≤ q → q < code.size → code[q]? = some 0) :
    endFrom code pos = max pos code.size := by
  fun_induction endFrom code pos with
  | case1 pos h ih =>
    rw [decodeAt_of_zero (hz pos le_rfl h), advance_ok, width_new_nop] at ih ⊢
    rw [ih (fun q hq => hz q (by omega))]
    omega
  | case2 pos h => omega

end Zeros

/-- Reading zero bytes past the end of a list reads what reading past its end does. -/
theorem getD_append_zeros (code : List UInt8) (n q : Nat) :
    (code ++ List.replicate n 0).toArray[q]?.getD 0 = code.toArray[q]?.getD 0 := by
  by_cases hq : q < code.length
  · simp [List.getElem?_append_left hq]
  · simp only [List.getElem?_toArray, List.getElem?_append_right (Nat.le_of_not_lt hq),
      List.getElem?_eq_none (Nat.le_of_not_lt hq), Option.getD_none, List.getElem?_replicate]
    split <;> rfl

/-- Zero bytes after the code do not change what decodes inside it. -/
theorem decodeAt_append_zeros {code : List UInt8} {pos : Nat} (n : Nat) (h : pos < code.length) :
    decodeAt (code ++ List.replicate n 0).toArray pos = decodeAt code.toArray pos :=
  decodeAt_congr (by simp [List.getElem?_append_left h]) (getD_append_zeros code n)

theorem getElem?_append_zeros {code : List UInt8} {n q : Nat} (h : code.length ≤ q)
    (hq : q < (code ++ List.replicate n 0).toArray.size) :
    (code ++ List.replicate n 0).toArray[q]? = some 0 := by
  simp only [List.size_toArray, List.length_append, List.length_replicate] at hq
  rw [List.getElem?_toArray, List.getElem?_append_right h, List.getElem?_replicate,
    if_pos (by omega)]

/-- Zero bytes after the code only add `NOP` entries after the walk over it. -/
theorem walkFrom_append_zeros (code : List UInt8) (n pos : Nat) :
    walkFrom (code ++ List.replicate n 0).toArray pos =
      walkFrom code.toArray pos ++ padding (endFrom code.toArray pos) (code.length + n) := by
  fun_induction walkFrom code.toArray pos with
  | case1 pos h d ih =>
    have hpos : pos < code.length := by simpa using h
    rw [walkFrom_of_lt (by simp; omega), decodeAt_append_zeros n hpos, ih, endFrom_of_lt h]
    rfl
  | case2 pos h =>
    have hpos : code.length ≤ pos := by simpa using h
    rw [endFrom_of_le (Nat.le_of_not_lt h), List.nil_append,
      walkFrom_of_zeros fun q hq hlt => getElem?_append_zeros (hpos.trans hq) hlt]
    simp

theorem endFrom_append_zeros (code : List UInt8) (n pos : Nat) :
    endFrom (code ++ List.replicate n 0).toArray pos =
      max (endFrom code.toArray pos) (code.length + n) := by
  fun_induction endFrom code.toArray pos with
  | case1 pos h ih =>
    have hpos : pos < code.length := by simpa using h
    rw [endFrom_of_lt (by simp; omega), decodeAt_append_zeros n hpos, ih]
  | case2 pos h =>
    have hpos : code.length ≤ pos := by simpa using h
    rw [endFrom_of_zeros fun q hq hlt => getElem?_append_zeros (hpos.trans hq) hlt]
    simp

/-! ## Trimmed images -/

theorem trim_eq_rdropWhile (code : List UInt8) : trim code = code.rdropWhile (· == 0) := rfl

/-- An image is its trimmed form followed by zero bytes. -/
theorem trim_append_zeros (code : List UInt8) :
    trim code ++ List.replicate (code.length - (trim code).length) 0 = code := by
  have hsplit : code.rdropWhile (· == 0) ++ code.rtakeWhile (· == 0) = code :=
    List.rdropWhile_append_rtakeWhile
  have hzeros : code.rtakeWhile (· == 0) = List.replicate (code.length - (trim code).length) 0 := by
    rw [List.eq_replicate_iff]
    refine ⟨?_, fun b hb => by simpa using List.mem_rtakeWhile_imp hb⟩
    have hlen := congrArg List.length hsplit
    rw [List.length_append] at hlen
    rw [trim_eq_rdropWhile]
    omega
  rw [← hzeros, trim_eq_rdropWhile, hsplit]

/-- Trimming the trailing zero bytes of an image only drops the `NOP` entries at
the end of its listing: the listing of the image is the listing of the trimmed
image followed by a `NOP` at every offset from where the trimmed walk stops to
the end of the image. Every entry kept has its offset and instruction. -/
theorem walk_eq_walk_trim_append_padding (code : List UInt8) :
    walk code.toArray = walk (trim code).toArray ++ padding (walkEnd (trim code).toArray) code.length := by
  have hcode := trim_append_zeros code
  have hlen : (trim code).length ≤ code.length := by
    have := congrArg List.length hcode
    rw [List.length_append] at this
    omega
  conv_lhs => rw [← hcode]
  rw [walk, walkFrom_append_zeros, walkEnd, walk, Nat.add_sub_cancel' hlen]

end Listing

end ByteMachine
