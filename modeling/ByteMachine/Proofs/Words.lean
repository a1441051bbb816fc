import ByteMachine.Numeral
import ByteMachine.Text.Unicode

/-!
# Words in upper case

The assembler reads every word after putting it in upper case. Upper-casing
works character by character and never drops a character. No character but the
colon upper-cases to a form that holds a colon, so a label written `name:` keeps
its name before the colon. Upper-casing leaves the value of a decimal,
hexadecimal or binary literal alone: the characters that are read as digits are
ASCII, and a digit is read the same in either case.
-/
namespace ByteMachine

namespace Text

/-! ## Upper-casing character by character -/

theorem toList_upper (s : String) : (upper s).toList = s.toList.flatMap upperChar :=
  String.toList_ofList

theorem upper_append (s t : String) : upper (s ++ t) = upper s ++ upper t :=
  String.ext (by simp [toList_upper, String.toList_append])

theorem toNat_toUpper (c : Char) :
    c.toUpper.toNat = if 97 ≤ c.toNat ∧ c.toNat ≤ 122 then c.toNat - 32 else c.toNat := by
  have ha : 'a'.val.toNat = 97 := rfl
  have hz : 'z'.val.toNat = 122 := rfl
  have hA : 'A'.val.toNat = 65 := rfl
  unfold Char.toUpper
  split
  · rename_i h
    simp only [UInt32.le_iff_toNat_le, ha, hz] at h
    simp only [Char.toNat, UInt32.toNat_add, UInt32.toNat_sub, ha, hA]
    rw [if_pos h]
    omega
  · rename_i h
    simp only [UInt32.le_iff_toNat_le, ha, hz] at h
    simp only [Char.toNat]
    rw [if_neg h]

/-- An ASCII character upper-cases to its ASCII upper-case form. -/
theorem upperChar_of_lt {c : Char} (h : c.toNat < 0x80) : upperChar c = [c.toUpper] :=
  if_pos h

/-- A character whose upper-case form is ASCII is ASCII itself. -/
theorem toNat_lt_of_toUpper {c : Char} (h : c.toUpper.toNat < 0x80) : c.toNat < 0x80 := by
  rw [toNat_toUpper] at h
  split at h <;> omega

/-- On ASCII text, upper-casing is the ASCII upper-casing of each character. -/
theorem flatMap_upperChar_of_ascii :
    ∀ cs : List Char, (∀ c ∈ cs, c.toNat < 0x80) → cs.flatMap upperChar = cs.map Char.toUpper
  | [], _ => rfl
  | c :: cs, h => by
    rw [List.flatMap_cons, List.map_cons, upperChar_of_lt (h c List.mem_cons_self),
      flatMap_upperChar_of_ascii cs fun c hc => h c (List.mem_cons_of_mem _ hc)]
    rfl

/-- The long forms are non-empty and hold no colon. -/
theorem longCases_spec :
    longCases.toList.all (fun e => !e.2.contains 0x3A && !e.2.isEmpty) = true := by
  decide

/-- No run moves a character onto the colon. -/
theorem caseRuns_spec :
    caseRuns.toList.all
      (fun r => decide (r.last + r.shift < 0x3A ∨ 0x3A < r.first + r.shift)) = true := by
  decide

theorem longCase_spec {n : Nat} {e : Nat × List Nat}
    (he : longCases.find? (fun e => e.1 == n) = some e) : 0x3A ∉ e.2 ∧ e.2 ≠ [] := by
  have := List.all_eq_true.1 longCases_spec e (Array.mem_toList_iff.2 (Array.mem_of_find?_eq_some he))
  simpa using this

theorem upperCode_ne_nil (n : Nat) : upperCode n ≠ [] := by
  unfold upperCode
  split
  · exact (longCase_spec ‹_›).2
  · split <;> simp

/-- Only the colon's upper-case form holds a colon. -/
theorem eq_of_colon_mem_upperCode {n : Nat} (h : 0x3A ∈ upperCode n) : n = 0x3A := by
  unfold upperCode at h
  split at h
  · exact absurd h (longCase_spec ‹_›).1
  · split at h
    · rename_i r hr
      -- a run that moved `n` onto the colon would show in the table
      have hn := Array.find?_some hr
      have hrun := List.all_eq_true.1 caseRuns_spec r
        (Array.mem_toList_iff.2 (Array.mem_of_find?_eq_some hr))
      simp only [Bool.and_eq_true, decide_eq_true_eq, beq_iff_eq] at hn hrun
      simp only [List.mem_singleton] at h
      omega
    · simpa [eq_comm] using h

theorem eq_of_ofNat_eq_colon {m : Nat} (h : Char.ofNat m = ':') : m = 0x3A := by
  unfold Char.ofNat at h
  by_cases hv : m.isValidChar
  · rw [dif_pos hv] at h
    exact congrArg Char.toNat h
  · rw [dif_neg hv] at h
    cases h

theorem upperChar_ne_nil (c : Char) : upperChar c ≠ [] := by
  unfold upperChar
  split
  · simp
  · simp [upperCode_ne_nil]

/-- No character but the colon upper-cases to a form holding a colon. -/
theorem colon_not_mem_upperChar {c : Char} (hc : c ≠ ':') : ':' ∉ upperChar c := by
  intro h
  unfold upperChar at h
  split at h
  · -- an ASCII character moves only when it is a lower-case letter
    have hu : c.toUpper.toNat = 0x3A := by
      rw [List.mem_singleton] at h
      rw [← h]
      rfl
    rw [toNat_toUpper] at hu
    split at hu
    · omega
    · exact hc (Char.toNat_inj.1 hu)
  · rename_i hbig
    obtain ⟨m, hm, hcolon⟩ := List.mem_map.1 h
    have := eq_of_colon_mem_upperCode ((eq_of_ofNat_eq_colon hcolon) ▸ hm)
    omega

theorem colon_not_mem_upper {s : String} (hs : ':' ∉ s.toList) : ':' ∉ (upper s).toList := by
  rw [toList_upper, List.mem_flatMap]
  rintro ⟨c, hc, hmem⟩
  exact colon_not_mem_upperChar (fun h => hs (h ▸ hc)) hmem

theorem upper_ne_empty {s : String} (hs : s ≠ "") : upper s ≠ "" := by
  intro h
  have hl := congrArg String.toList h
  rw [toList_upper, String.toList_empty, List.flatMap_eq_nil_iff] at hl
  obtain ⟨c, hc⟩ := List.exists_mem_of_ne_nil s.toList (fun h' => hs (String.toList_eq_nil_iff.1 h'))
  exact upperChar_ne_nil c (hl c hc)

end Text

/-! ## Digits read the same in either case -/

namespace Numeral

open Text

/-- A sign is read only in front of at least one more character. -/
theorem read_cons (radix : Nat) (lo hi : Int) (c : Char) (rest : List Char) :
    read radix lo hi (String.ofList (c :: rest)) =
      if c = '+' then
        (if rest = [] then .error .invalidDigit else accumulate radix lo hi true 0 rest)
      else if c = '-' then
        (if rest = [] then .error .invalidDigit
         else if lo < 0 then accumulate radix lo hi false 0 rest else .error .invalidDigit)
      else accumulate radix lo hi true 0 (c :: rest) := by
  cases rest <;> by_cases hp : c = '+' <;> by_cases hm : c = '-' <;> simp_all [read]

theorem digitValue_toUpper (radix : Nat) (c : Char) :
    digitValue radix c.toUpper = digitValue radix c := by
  simp only [digitValue, toNat_toUpper]
  by_cases hl : 97 ≤ c.toNat ∧ c.toNat ≤ 122
  · have h1 : ¬(48 ≤ c.toNat - 32 ∧ c.toNat - 32 ≤ 57) := by omega
    have h2 : ¬(97 ≤ c.toNat - 32 ∧ c.toNat - 32 ≤ 122) := by omega
    have h3 : 65 ≤ c.toNat - 32 ∧ c.toNat - 32 ≤ 90 := by omega
    have h4 : ¬(48 ≤ c.toNat ∧ c.toNat ≤ 57) := by omega
    simp only [hl, h1, h2, h3, h4, and_self, ↓reduceIte]
    rw [show c.toNat - 32 - 55 = c.toNat - 87 by omega]
  · simp only [hl, ↓reduceIte]

theorem lt_of_digitValue {radix : Nat} (hr : radix ≤ 36) {c : Char} {d : Nat}
    (h : digitValue radix c = some d) : c.toNat < 0x80 := by
  refine Classical.byContradiction fun hc => ?_
  have h1 : ¬(48 ≤ c.toNat ∧ c.toNat ≤ 57) := by omega
  have h2 : ¬(97 ≤ c.toNat ∧ c.toNat ≤ 122) := by omega
  have h3 : ¬(65 ≤ c.toNat ∧ c.toNat ≤ 90) := by omega
  simp only [digitValue, h1, h2, h3, if_false] at h
  rw [if_neg (by omega)] at h
  cases h

theorem upperChar_of_digitValue {radix : Nat} (hr : radix ≤ 36) {c : Char} {d : Nat}
    (h : digitValue radix c = some d) : upperChar c = [c.toUpper] :=
  upperChar_of_lt (lt_of_digitValue hr h)

/-- Digits add up to the same value in either case, as long as no character read is
rejected (reading may stop early, at a bound, before a character that is not a digit). -/
theorem accumulate_flatMap_upperChar {radix : Nat} (hr : radix ≤ 36) (lo hi : Int) (up : Bool) :
    ∀ (cs : List Char) (acc : Int), accumulate radix lo hi up acc cs ≠ .error .invalidDigit →
      accumulate radix lo hi up acc (cs.flatMap upperChar) = accumulate radix lo hi up acc cs
  | [], _, _ => rfl
  | c :: cs, acc, h => by
    cases hd : digitValue radix c with
    | none => simp [accumulate, hd] at h
    | some d =>
      rw [List.flatMap_cons, upperChar_of_digitValue hr hd, List.singleton_append]
      simp only [accumulate, digitValue_toUpper, hd] at h ⊢
      by_cases h1 : up = true ∧ hi < (if up = true then acc * radix + d else acc * radix - d)
      · simp only [if_pos h1]
      · by_cases h2 : (!up) = true ∧ (if up = true then acc * radix + d else acc * radix - d) < lo
        · simp only [if_neg h1, if_pos h2]
        · simp only [if_neg h1, if_neg h2] at h ⊢
          exact accumulate_flatMap_upperChar hr lo hi up cs _ h

theorem digitValue_sign {radix : Nat} (hr : radix ≤ 36) :
    digitValue radix '+' = none ∧ digitValue radix '-' = none := by
  have hp : '+'.toNat = 43 := rfl
  have hm : '-'.toNat = 45 := rfl
  constructor <;> simp [digitValue, hp, hm] <;> omega

theorem upperChar_plus : upperChar '+' = ['+'] := rfl

theorem upperChar_minus : upperChar '-' = ['-'] := rfl

theorem read_flatMap_upperChar {radix : Nat} (hr : radix ≤ 36) (lo hi : Int) (cs : List Char)
    (h : read radix lo hi (String.ofList cs) ≠ .error .invalidDigit) :
    read radix lo hi (String.ofList (cs.flatMap upperChar)) = read radix lo hi (String.ofList cs) := by
  cases cs with
  | nil => rfl
  | cons c rest =>
    have hrest : rest.flatMap upperChar = [] ↔ rest = [] := by
      simp only [List.flatMap_eq_nil_iff]
      exact ⟨fun h => List.eq_nil_iff_forall_not_mem.2 fun c hc => upperChar_ne_nil c (h c hc),
        fun h => by simp [h]⟩
    rw [read_cons] at h
    rw [read_cons, List.flatMap_cons]
    by_cases hp : c = '+'
    · subst hp
      rw [upperChar_plus, List.singleton_append, read_cons, if_pos rfl, if_pos rfl]
      rw [if_pos rfl] at h
      by_cases hn : rest = []
      · rw [if_pos hn, if_pos (hrest.2 hn)]
      · rw [if_neg hn] at h
        rw [if_neg hn, if_neg (mt hrest.1 hn)]
        exact accumulate_flatMap_upperChar hr lo hi true rest 0 h
    · by_cases hm : c = '-'
      · subst hm
        rw [upperChar_minus, List.singleton_append, read_cons, if_neg hp, if_neg hp, if_pos rfl,
          if_pos rfl]
        rw [if_neg hp, if_pos rfl] at h
        by_cases hn : rest = []
        · rw [if_pos hn, if_pos (hrest.2 hn)]
        · rw [if_neg hn] at h
          rw [if_neg hn, if_neg (mt hrest.1 hn)]
          by_cases hlo : lo < 0
          · rw [if_pos hlo] at h
            rw [if_pos hlo, if_pos hlo]
            exact accumulate_flatMap_upperChar hr lo hi false rest 0 h
          · rw [if_neg hlo, if_neg hlo]
      · -- without a sign the first character is already a digit
        rw [if_neg hp, if_neg hm] at h
        rw [if_neg hp, if_neg hm]
        obtain ⟨d, hd⟩ : ∃ d, digitValue radix c = some d := by
          cases hd : digitValue radix c with
          | none => simp [accumulate, hd] at h
          | some d => exact ⟨d, rfl⟩
        have hd' : digitValue radix c.toUpper = some d := (digitValue_toUpper radix c).trans hd
        have hup : c.toUpper ≠ '+' ∧ c.toUpper ≠ '-' := by
          constructor <;> intro he <;> rw [he] at hd' <;> simp [digitValue_sign hr] at hd'
        rw [← accumulate_flatMap_upperChar hr lo hi true (c :: rest) 0 h, List.flatMap_cons,
          upperChar_of_digitValue hr hd, List.singleton_append, read_cons, if_neg hup.1,
          if_neg hup.2]

end Numeral

/-! ## Literals keep their value -/

namespace Literal

open Numeral Text

theorem radixValue_flatMap_upperChar {radix : Nat} (hr : radix ≤ 36) {cs : List Char} {v : Int}
    (h : radixValue radix cs = some v) : radixValue radix (cs.flatMap upperChar) = some v := by
  unfold radixValue at h ⊢
  rw [read_flatMap_upperChar hr _ _ cs]
  · exact h
  · intro hi
    rw [hi] at h
    cases h

theorem toNat_of_digitValue_ten {c : Char} {d : Nat} (h : digitValue 10 c = some d) :
    48 ≤ c.toNat ∧ c.toNat ≤ 57 := by
  refine Classical.byContradiction fun h1 => ?_
  by_cases h2 : 97 ≤ c.toNat ∧ c.toNat ≤ 122
  · simp only [digitValue, h1, h2, and_self, ↓reduceIte] at h
    rw [if_neg (by omega)] at h
    cases h
  · by_cases h3 : 65 ≤ c.toNat ∧ c.toNat ≤ 90
    · simp only [digitValue, h1, h2, h3, and_self, ↓reduceIte] at h
      rw [if_neg (by omega)] at h
      cases h
    · simp only [digitValue, h1, h2, h3, ↓reduceIte] at h
      rw [if_neg (by omega)] at h
      cases h

/-- A decimal digit has no other case. -/
theorem upperChar_of_digitValue_ten {c : Char} {d : Nat} (h : digitValue 10 c = some d) :
    upperChar c = [c] := by
  have hc := toNat_of_digitValue_ten h
  rw [upperChar_of_digitValue (by decide) h]
  have hu : c.toUpper.toNat = c.toNat := by
    rw [toNat_toUpper, if_neg (by omega)]
  rw [Char.toNat_inj.1 hu]

/-- A decimal number begins with a sign or a digit, and neither changes case. -/
theorem upperChar_of_radixValue_ten {c : Char} {rest : List Char} {v : Int}
    (h : radixValue 10 (c :: rest) = some v) : upperChar c = [c] := by
  by_cases hp : c = '+'
  · subst hp
    exact upperChar_plus
  by_cases hm : c = '-'
  · subst hm
    exact upperChar_minus
  unfold radixValue at h
  rw [read_cons, if_neg hp, if_neg hm] at h
  cases hd : digitValue 10 c with
  | none => simp [accumulate, hd] at h
  | some d => exact upperChar_of_digitValue_ten hd

/-- After a leading zero a decimal number goes on with a digit. -/
theorem digitValue_of_radixValue_ten_zero {c : Char} {rest : List Char} {v : Int}
    (h : radixValue 10 ('0' :: c :: rest) = some v) : ∃ d, digitValue 10 c = some d := by
  unfold radixValue at h
  rw [read_cons, if_neg (by decide), if_neg (by decide)] at h
  have h0 : digitValue 10 '0' = some 0 := rfl
  cases hd : digitValue 10 c with
  | none => simp [accumulate, h0, hd, int64Max, int64Min] at h
  | some d => exact ⟨d, rfl⟩

theorem parse_ofList_decimal {cs : List Char} (hq : cs.head? ≠ some '"')
    (hp : ∀ c rest, cs = '0' :: c :: rest → c ≠ 'x' ∧ c ≠ 'X' ∧ c ≠ 'b' ∧ c ≠ 'B') :
    parse (String.ofList cs) = radixValue 10 cs := by
  unfold parse
  rw [String.toList_ofList]
  split
  · exact absurd rfl (hp _ _ rfl).1
  · exact absurd rfl (hp _ _ rfl).2.1
  · exact absurd rfl (hp _ _ rfl).2.2.1
  · exact absurd rfl (hp _ _ rfl).2.2.2
  · exact absurd rfl hq
  · exact absurd rfl hq
  · rfl

theorem upperChar_prefix :
    upperChar '0' = ['0'] ∧ upperChar 'x' = ['X'] ∧ upperChar 'X' = ['X'] ∧
      upperChar 'b' = ['B'] ∧ upperChar 'B' = ['B'] :=
  ⟨rfl, rfl, rfl, rfl, rfl⟩

/-- Upper-casing keeps the value of every literal but a quoted character. -/
theorem parse_upper {w : String} {v : Int} (h : parse w = some v)
    (hq : w.toList.head? ≠ some '"') : parse (upper w) = some v := by
  obtain ⟨h0, hx, hX, hb, hB⟩ := upperChar_prefix
  rw [← @String.ofList_toList (upper w), toList_upper]
  unfold parse at h ⊢
  rw [String.toList_ofList]
  split at h
  next cs heq =>
    rw [heq, List.flatMap_cons, List.flatMap_cons, h0, hx, List.singleton_append,
      List.singleton_append]
    exact radixValue_flatMap_upperChar (by decide) h
  next cs heq =>
    rw [heq, List.flatMap_cons, List.flatMap_cons, h0, hX, List.singleton_append,
      List.singleton_append]
    exact radixValue_flatMap_upperChar (by decide) h
  next cs heq =>
    rw [heq, List.flatMap_cons, List.flatMap_cons, h0, hb, List.singleton_append,
      List.singleton_append]
    exact radixValue_flatMap_upperChar (by decide) h
  next cs heq =>
    rw [heq, List.flatMap_cons, List.flatMap_cons, h0, hB, List.singleton_append,
      List.singleton_append]
    exact radixValue_flatMap_upperChar (by decide) h
  next c cs heq => exact absurd (by rw [heq]; rfl) hq
  next heq => cases h
  next hx1 hx2 hx3 hx4 hx5 hx6 =>
    obtain ⟨c, rest, hw⟩ : ∃ c rest, w.toList = c :: rest := by
      cases hw : w.toList with
      | nil =>
        rw [hw] at h
        cases h
      | cons c rest => exact ⟨c, rest, rfl⟩
    rw [hw] at h hq
    have hL : (c :: rest).flatMap upperChar = c :: rest.flatMap upperChar := by
      rw [List.flatMap_cons, upperChar_of_radixValue_ten h, List.singleton_append]
    have hq' : (c :: rest.flatMap upperChar).head? ≠ some '"' := hq
    have hp' : ∀ c' rest', c :: rest.flatMap upperChar = '0' :: c' :: rest' →
        c' ≠ 'x' ∧ c' ≠ 'X' ∧ c' ≠ 'b' ∧ c' ≠ 'B' := by
      intro c' rest' he
      rw [List.cons.injEq] at he
      obtain ⟨rfl, he⟩ := he
      cases rest with
      | nil => cases he
      | cons c2 rest2 =>
        obtain ⟨d, hd⟩ := digitValue_of_radixValue_ten_zero h
        rw [List.flatMap_cons, upperChar_of_digitValue_ten hd, List.singleton_append,
          List.cons.injEq] at he
        obtain ⟨rfl, -⟩ := he
        have hc2 := toNat_of_digitValue_ten hd
        refine ⟨?_, ?_, ?_, ?_⟩ <;> rintro rfl <;> exact absurd hc2 (by decide)
    rw [hw, hL, ← @String.toList_ofList (c :: rest.flatMap upperChar)]
    show parse _ = _
    rw [parse_ofList_decimal hq' hp', ← hL]
    exact radixValue_flatMap_upperChar (by decide) h

end Literal

end ByteMachine
