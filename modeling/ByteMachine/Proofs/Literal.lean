import ByteMachine.Proofs.Words

/-!
# What a literal reads as

Integers are read digit by digit, moving away from zero, and the reading stops at
the first character that is not a digit or at the first digit that takes the value
past a bound. Since every digit moves the value further from zero, the reading
goes past a bound exactly when the whole run of digits at the front of the text
does (`accumulate_eq`): a text that goes on after its digits is refused only when
those digits stay in range.

So a literal's digits read as their value saturated to the signed 64-bit range
when they are all there is, and also when something that is not a digit follows a
run of digits whose value is already out of that range (`parse_reads_as`,
`parse_saturates_before_non_digit`). Reading a decimal number written out by the
machine's own printer gives it back (`readNat_toString`).
-/
namespace ByteMachine

namespace Numeral

/-- Whether `c` is a digit of `radix`. -/
def isDigit (radix : Nat) (c : Char) : Bool :=
  (digitValue radix c).isSome

/-- The value of the digits `ds` of `radix` read after the value `a`, left to right. -/
def digitsFrom (radix a : Nat) (ds : List Char) : Nat :=
  ds.foldl (fun v c => v * radix + (digitValue radix c).getD 0) a

/-- The sign of the direction in which a reading moves away from zero. -/
def direction (up : Bool) : Int :=
  if up then 1 else -1

/-- The fault of a reading that goes past the bound it moves towards. -/
def pastBound (up : Bool) : NumeralFault :=
  if up then .tooLarge else .tooSmall

section Digits

variable {radix : Nat}

theorem isDigit_of_digitValue {c : Char} {d : Nat} (h : digitValue radix c = some d) :
    isDigit radix c = true := by
  simp [isDigit, h]

theorem isDigit_eq_false {c : Char} (h : digitValue radix c = none) : isDigit radix c = false := by
  simp [isDigit, h]

@[simp] theorem direction_true : direction true = 1 := rfl

@[simp] theorem direction_false : direction false = -1 := rfl

@[simp] theorem digitsFrom_nil (a : Nat) : digitsFrom radix a [] = a := rfl

theorem digitsFrom_cons (a : Nat) (c : Char) (ds : List Char) :
    digitsFrom radix a (c :: ds) = digitsFrom radix (a * radix + (digitValue radix c).getD 0) ds :=
  rfl

theorem digitsFrom_append (a : Nat) (xs ys : List Char) :
    digitsFrom radix a (xs ++ ys) = digitsFrom radix (digitsFrom radix a xs) ys :=
  List.foldl_append

/-- Reading more digits never brings the value closer to zero. -/
theorem le_digitsFrom (hr : 1 ≤ radix) (a : Nat) (ds : List Char) : a ≤ digitsFrom radix a ds := by
  induction ds generalizing a with
  | nil => exact Nat.le_refl a
  | cons c ds ih =>
    rw [digitsFrom_cons]
    have hstep : a ≤ a * radix + (digitValue radix c).getD 0 := by
      have := Nat.le_mul_of_pos_right a hr
      omega
    exact Nat.le_trans hstep (ih _)

end Digits

/-! ## Reading a run of digits -/

section Accumulate

variable {radix : Nat} {lo hi : Int}

/-- One digit read after `direction up * a`: the value moves to
`direction up * (a * radix + d)`, and the reading stops there if that is out of range. -/
theorem accumulate_cons_of_digit (hlo : lo ≤ 0) (hhi : 0 ≤ hi) (up : Bool) (a : Nat) {c : Char}
    {d : Nat} (hd : digitValue radix c = some d) (cs : List Char) :
    accumulate radix lo hi up (direction up * a) (c :: cs) =
      if direction up * ↑(a * radix + d) < lo ∨ hi < direction up * ↑(a * radix + d) then
        .error (pastBound up)
      else accumulate radix lo hi up (direction up * ↑(a * radix + d)) cs := by
  have hn : (0 : Int) ≤ ↑(a * radix + d) := Int.natCast_nonneg _
  cases up with
  | true =>
    have hnext : direction true * ↑a * ↑radix + ↑d = direction true * ↑(a * radix + d) := by
      simp only [direction_true, Int.one_mul, Int.natCast_add, Int.natCast_mul]
    simp only [accumulate, hd, ↓reduceIte, hnext, true_and, Bool.not_true, Bool.false_eq_true,
      false_and, pastBound]
    rw [direction_true, Int.one_mul]
    by_cases hout : hi < ↑(a * radix + d)
    · rw [if_pos hout, if_pos (Or.inr hout)]
    · rw [if_neg hout, if_neg (by omega)]
  | false =>
    have hnext : direction false * ↑a * ↑radix - ↑d = direction false * ↑(a * radix + d) := by
      simp only [direction_false, Int.natCast_add, Int.natCast_mul, Int.neg_mul, Int.one_mul,
        Int.neg_add, Int.sub_eq_add_neg]
    simp only [accumulate, hd, Bool.false_eq_true, ↓reduceIte, hnext, false_and, Bool.not_false,
      true_and, pastBound]
    rw [direction_false, Int.neg_one_mul]
    by_cases hout : -(↑(a * radix + d) : Int) < lo
    · rw [if_pos hout, if_pos (Or.inl hout)]
    · rw [if_neg hout, if_neg (by omega)]

/-- Reading digits after `direction up * a`, which lies in `[lo, hi]`: the reading goes
past a bound exactly when the value of the whole run of digits at the front does; it
otherwise ends with that value, or fails at the first character that is not a digit. -/
theorem accumulate_eq (hr : 1 ≤ radix) (hlo : lo ≤ 0) (hhi : 0 ≤ hi) (up : Bool) (a : Nat)
    (cs : List Char) (ha : lo ≤ direction up * a ∧ direction up * a ≤ hi) :
    accumulate radix lo hi up (direction up * a) cs =
      if direction up * ↑(digitsFrom radix a (cs.takeWhile (isDigit radix))) < lo ∨
          hi < direction up * ↑(digitsFrom radix a (cs.takeWhile (isDigit radix))) then
        .error (pastBound up)
      else if cs.dropWhile (isDigit radix) = [] then
        .ok (direction up * ↑(digitsFrom radix a (cs.takeWhile (isDigit radix))))
      else .error .invalidDigit := by
  induction cs generalizing a with
  | nil => simp [accumulate, ha.1, ha.2, Int.not_lt.2]
  | cons c cs ih =>
    cases hd : digitValue radix c with
    | none =>
      have hc := isDigit_eq_false hd
      simp [accumulate, hd, hc, Int.not_lt.2 ha.1, Int.not_lt.2 ha.2]
    | some d =>
      have hc := isDigit_of_digitValue hd
      rw [accumulate_cons_of_digit hlo hhi up a hd, List.takeWhile_cons_of_pos hc,
        List.dropWhile_cons_of_pos hc, digitsFrom_cons, hd, Option.getD_some]
      have hmono := le_digitsFrom hr (a * radix + d) (cs.takeWhile (isDigit radix))
      by_cases hout : direction up * ↑(a * radix + d) < lo ∨ hi < direction up * ↑(a * radix + d)
      · -- past a bound already: the whole run lies further out
        have hout' : direction up * ↑(digitsFrom radix (a * radix + d)
            (cs.takeWhile (isDigit radix))) < lo ∨
            hi < direction up * ↑(digitsFrom radix (a * radix + d)
              (cs.takeWhile (isDigit radix))) := by
          cases up <;> simp only [direction_true, direction_false, Int.one_mul, Int.neg_one_mul]
            at hout ⊢ <;> omega
        rw [if_pos hout, if_pos hout']
      · rw [if_neg hout]
        exact ih (a * radix + d) (by omega)

end Accumulate

/-! ## Reading a decimal number back -/

/-- A decimal digit is read as its distance from `0`. -/
theorem digitValue_ten_of_isDigit {c : Char} (h : c.isDigit = true) :
    digitValue 10 c = some (c.toNat - 48) := by
  have hc : 48 ≤ c.toNat ∧ c.toNat ≤ 57 := by
    simp only [Char.isDigit, Bool.and_eq_true, decide_eq_true_eq] at h
    exact ⟨h.1, h.2⟩
  simp only [digitValue, hc, and_self, ↓reduceIte]
  rw [if_pos (by omega)]

/-- On decimal digits, the value read is the one the printer's digits stand for. -/
theorem digitsFrom_ten_eq_ofDigitChars (a : Nat) :
    ∀ cs : List Char, (∀ c ∈ cs, c.isDigit = true) → digitsFrom 10 a cs = Nat.ofDigitChars 10 cs a
  | [], _ => rfl
  | c :: cs, h => by
    rw [digitsFrom_cons, Nat.ofDigitChars_cons, digitValue_ten_of_isDigit (h c List.mem_cons_self),
      Option.getD_some, digitsFrom_ten_eq_ofDigitChars _ cs fun c hc => h c (List.mem_cons_of_mem _ hc),
      Nat.mul_comm a 10]
    rfl

/-- A number written in decimal by the printer reads back as itself whenever it is
within the bound. -/
theorem readNat_toString {n bound : Nat} (h : n ≤ bound) : readNat bound (toString n) = .ok n := by
  have hdig : ∀ c ∈ Nat.toDigits 10 n, c.isDigit = true := fun c hc =>
    Nat.isDigit_of_mem_toDigits (by decide) (by decide) hc
  have hnum : ∀ c ∈ Nat.toDigits 10 n, isDigit 10 c = true := fun c hc =>
    isDigit_of_digitValue (digitValue_ten_of_isDigit (hdig c hc))
  have htake : (Nat.toDigits 10 n).takeWhile (isDigit 10) = Nat.toDigits 10 n := by
    simpa using @List.takeWhile_append_of_pos _ (isDigit 10) _ [] hnum
  have hdrop : (Nat.toDigits 10 n).dropWhile (isDigit 10) = [] := by
    simpa using @List.dropWhile_append_of_pos _ (isDigit 10) _ [] hnum
  have hval : digitsFrom 10 0 (Nat.toDigits 10 n) = n := by
    rw [digitsFrom_ten_eq_ofDigitChars 0 _ hdig, Nat.ofDigitChars_ten_toDigits]
  have hacc : accumulate 10 0 bound true 0 (Nat.toDigits 10 n) = .ok (n : Int) := by
    have := accumulate_eq (show 1 ≤ 10 by decide) (Int.le_refl 0) (Int.natCast_nonneg bound) true 0
      (Nat.toDigits 10 n) (by simp)
    rw [htake, hdrop, hval] at this
    simpa [Nat.not_lt.2 h, Int.not_lt.2 (Int.natCast_nonneg n)] using this
  obtain ⟨c, cs, hcs⟩ : ∃ c cs, Nat.toDigits 10 n = c :: cs :=
    List.exists_cons_of_ne_nil Nat.toDigits_ne_nil
  have hc : digitValue 10 c = some (c.toNat - 48) :=
    digitValue_ten_of_isDigit (hdig c (by rw [hcs]; exact List.mem_cons_self))
  have hsign : c ≠ '+' ∧ c ≠ '-' := by
    have hs := digitValue_sign (show 10 ≤ 36 by decide)
    constructor <;> rintro rfl <;> simp [hs.1, hs.2] at hc
  simp only [readNat, Nat.toString_eq_ofList_toDigits, hcs, read_cons, if_neg hsign.1,
    if_neg hsign.2]
  rw [← hcs, hacc]
  rfl

end Numeral

/-! ## Literals -/

namespace Literal

open Numeral

/-- Whether `v` lies outside the signed 64-bit range. -/
def Outside (v : Int) : Prop :=
  v < int64Min ∨ int64Max < v

/-- `v` clamped to the signed 64-bit range. -/
def saturate (v : Int) : Int :=
  max int64Min (min v int64Max)

/-- The run of digits at the front of `body` reads as `v`, moving away from zero in the
direction `up`: `body` is one or more digits of `radix`, followed by nothing, or by
anything at all when the value of the digits already lies outside the signed 64-bit
range; `v` is that value, saturated to the range. -/
def RunReadsAs (radix : Nat) (up : Bool) (body : List Char) (v : Int) : Prop :=
  ∃ ds rest, body = ds ++ rest ∧ ds ≠ [] ∧ (∀ c ∈ ds, isDigit radix c = true) ∧
    v = saturate (direction up * digitsFrom radix 0 ds) ∧
    (rest = [] ∨ Outside (direction up * digitsFrom radix 0 ds))

/-- The text `cs` reads as `v` in `radix`: an optional `+` or `-`, then a run of digits
that reads as `v` in the direction of the sign. -/
def ReadsAs (radix : Nat) (cs : List Char) (v : Int) : Prop :=
  RunReadsAs radix true cs v ∨ (∃ body, cs = '+' :: body ∧ RunReadsAs radix true body v) ∨
    ∃ body, cs = '-' :: body ∧ RunReadsAs radix false body v

/-- What the run of digits at the front of `body` reads as in the direction `up`: nothing
without a digit, its value saturated when that lies outside the 64-bit range, its value
when nothing follows the run, and nothing otherwise. -/
def runValue (radix : Nat) (up : Bool) (body : List Char) : Option Int :=
  let w := direction up * digitsFrom radix 0 (body.takeWhile (isDigit radix))
  if body.takeWhile (isDigit radix) = [] then none
  else if w < int64Min ∨ int64Max < w then some (saturate w)
  else if body.dropWhile (isDigit radix) = [] then some w
  else none

theorem saturate_of_not_outside {v : Int} (h : ¬ Outside v) : saturate v = v := by
  simp only [Outside, not_or, Int.not_lt] at h
  simp only [saturate]
  omega

/-- Once a run's value lies outside the range, reading more digits keeps it outside
and saturates to the same bound. -/
theorem outside_of_le {up : Bool} {a b : Nat} (h : Outside (direction up * a)) (hab : a ≤ b) :
    Outside (direction up * b) ∧ saturate (direction up * b) = saturate (direction up * a) := by
  cases up <;> simp only [Outside, saturate, direction_true, direction_false, Int.one_mul,
    Int.neg_one_mul, int64Min, int64Max] at h ⊢ <;> omega

section RunValue

variable {radix : Nat}

/-- What reading a nonempty body after its sign gives: the run of digits at its front. -/
theorem radixValue_eq_runValue (hr : 1 ≤ radix) {cs body : List Char} (up : Bool)
    (hb : body ≠ [])
    (hread : read radix int64Min int64Max (String.ofList cs) =
      accumulate radix int64Min int64Max up 0 body) :
    radixValue radix cs = runValue radix up body := by
  have hacc := accumulate_eq hr (by decide : int64Min ≤ 0) (by decide : (0 : Int) ≤ int64Max) up 0
    body (by cases up <;> decide)
  rw [Int.natCast_zero, Int.mul_zero] at hacc
  unfold radixValue runValue
  rw [hread, hacc]
  have hrun : body.dropWhile (isDigit radix) = [] → body.takeWhile (isDigit radix) ≠ [] := by
    intro hd ht
    have := List.takeWhile_append_dropWhile (p := isDigit radix) (l := body)
    rw [hd, ht] at this
    exact hb this.symm
  by_cases hout : direction up * ↑(digitsFrom radix 0 (body.takeWhile (isDigit radix))) < int64Min ∨
      int64Max < direction up * ↑(digitsFrom radix 0 (body.takeWhile (isDigit radix)))
  · -- past a bound: the digits are there, and the bound is the saturated value
    have hne : body.takeWhile (isDigit radix) ≠ [] := by
      intro ht
      rw [ht, digitsFrom_nil, Int.natCast_zero, Int.mul_zero] at hout
      exact absurd hout (by decide)
    rw [if_pos hout, if_neg hne, if_pos hout]
    cases up <;> simp only [pastBound, direction_true, direction_false, Bool.false_eq_true,
      ↓reduceIte, saturate, Int.one_mul, Int.neg_one_mul] at hout ⊢ <;> congr 1 <;>
      simp only [int64Min, int64Max] at hout ⊢ <;> omega
  · rw [if_neg hout]
    by_cases hd : body.dropWhile (isDigit radix) = []
    · rw [if_pos hd, if_neg (hrun hd), if_neg hout, if_pos hd]
    · rw [if_neg hd]
      by_cases ht : body.takeWhile (isDigit radix) = []
      · rw [if_pos ht]
      · rw [if_neg ht, if_neg hout, if_neg hd]

/-- The run at the front of a body reads as `v` exactly as `RunReadsAs` says. -/
theorem runValue_eq_some_iff (hr : 1 ≤ radix) (up : Bool) (body : List Char) (v : Int) :
    runValue radix up body = some v ↔ RunReadsAs radix up body v := by
  constructor
  · intro h
    unfold runValue at h
    have hall : ∀ c ∈ body.takeWhile (isDigit radix), isDigit radix c = true :=
      List.all_eq_true.1 List.all_takeWhile
    by_cases ht : body.takeWhile (isDigit radix) = []
    · rw [if_pos ht] at h
      cases h
    rw [if_neg ht] at h
    refine ⟨_, _, List.takeWhile_append_dropWhile.symm, ht, hall, ?_⟩
    by_cases hout : direction up * ↑(digitsFrom radix 0 (body.takeWhile (isDigit radix))) <
        int64Min ∨ int64Max < direction up * ↑(digitsFrom radix 0 (body.takeWhile (isDigit radix)))
    · rw [if_pos hout] at h
      exact ⟨(Option.some.inj h).symm, .inr hout⟩
    · rw [if_neg hout] at h
      by_cases hd : body.dropWhile (isDigit radix) = []
      · rw [if_pos hd] at h
        exact ⟨by rw [saturate_of_not_outside hout]; exact (Option.some.inj h).symm, .inl hd⟩
      · rw [if_neg hd] at h
        cases h
  · rintro ⟨ds, rest, rfl, hne, hall, rfl, hrest⟩
    have htake : (ds ++ rest).takeWhile (isDigit radix) = ds ++ rest.takeWhile (isDigit radix) :=
      List.takeWhile_append_of_pos hall
    have hdrop : (ds ++ rest).dropWhile (isDigit radix) = rest.dropWhile (isDigit radix) :=
      List.dropWhile_append_of_pos hall
    have hne' : ds ++ rest.takeWhile (isDigit radix) ≠ [] := by simp [hne]
    unfold runValue
    rw [htake, hdrop, if_neg hne', digitsFrom_append]
    rcases hrest with rfl | hout
    · -- nothing follows the digits: their value, saturated when it is out of range
      simp only [List.takeWhile_nil, List.dropWhile_nil, digitsFrom_nil, ↓reduceIte]
      split
      · rfl
      · next hin => rw [saturate_of_not_outside hin]
    · -- digits out of range: however many more follow, they saturate to the same bound
      obtain ⟨hout', hsat⟩ := outside_of_le hout
        (le_digitsFrom hr (digitsFrom radix 0 ds) (rest.takeWhile (isDigit radix)))
      rw [Outside] at hout'
      rw [if_pos hout', hsat]

/-- A `+` reads the run after it upwards. -/
theorem radixValue_plus (hr : 1 ≤ radix) (body : List Char) :
    radixValue radix ('+' :: body) = runValue radix true body := by
  by_cases hb : body = []
  · subst hb
    rfl
  · refine radixValue_eq_runValue hr true hb ?_
    rw [read_cons, if_pos rfl, if_neg hb]

/-- A `-` reads the run after it downwards. -/
theorem radixValue_minus (hr : 1 ≤ radix) (body : List Char) :
    radixValue radix ('-' :: body) = runValue radix false body := by
  by_cases hb : body = []
  · subst hb
    rfl
  · refine radixValue_eq_runValue hr false hb ?_
    rw [read_cons, if_neg (by decide), if_pos rfl, if_neg hb, if_pos (by decide)]

/-- Without a sign the run starts at the first character and is read upwards. -/
theorem radixValue_unsigned (hr : 1 ≤ radix) {c : Char} (hp : c ≠ '+') (hm : c ≠ '-')
    (body : List Char) : radixValue radix (c :: body) = runValue radix true (c :: body) := by
  refine radixValue_eq_runValue hr true (List.cons_ne_nil c body) ?_
  rw [read_cons, if_neg hp, if_neg hm]

theorem not_runReadsAs_nil {up : Bool} {v : Int} : ¬ RunReadsAs radix up [] v := by
  rintro ⟨ds, rest, h, hne, -⟩
  exact hne (List.append_eq_nil_iff.1 h.symm).1

/-- A run of digits does not start with a character that is no digit. -/
theorem not_runReadsAs_cons {up : Bool} {c : Char} {body : List Char} {v : Int}
    (hc : isDigit radix c = false) : ¬ RunReadsAs radix up (c :: body) v := by
  rintro ⟨ds, rest, h, hne, hall, -⟩
  obtain ⟨d, ds', rfl⟩ := List.exists_cons_of_ne_nil hne
  rw [List.cons_append, List.cons.injEq] at h
  rw [h.1, hall d List.mem_cons_self] at hc
  cases hc

/-- Reading digits of `radix` gives `v` exactly when the text reads as `v`. -/
theorem radixValue_eq_some_iff (hr : 1 ≤ radix) (h36 : radix ≤ 36) (cs : List Char) (v : Int) :
    radixValue radix cs = some v ↔ ReadsAs radix cs v := by
  have hs := digitValue_sign h36
  have hp : isDigit radix '+' = false := isDigit_eq_false hs.1
  have hm : isDigit radix '-' = false := isDigit_eq_false hs.2
  rcases cs with _ | ⟨c, body⟩
  · -- no text reads as nothing
    have hnil : radixValue radix [] = none := rfl
    simp [hnil, ReadsAs, not_runReadsAs_nil]
  by_cases hcp : c = '+'
  · subst hcp
    rw [radixValue_plus hr, runValue_eq_some_iff hr]
    simp [ReadsAs, not_runReadsAs_cons hp]
  by_cases hcm : c = '-'
  · subst hcm
    rw [radixValue_minus hr, runValue_eq_some_iff hr]
    simp [ReadsAs, not_runReadsAs_cons hm]
  · rw [radixValue_unsigned hr hcp hcm, runValue_eq_some_iff hr]
    simp [ReadsAs, hcp, hcm]

end RunValue

/-- What every literal reads as. After `0x` or `0X` the rest reads in hexadecimal, after
`0b` or `0B` in binary, and a text with none of these prefixes that does not start with a
double quote reads whole in decimal: an optional sign, then one or more digits, followed
by nothing or, when the signed value of the digits already lies outside the signed
64-bit range, by anything; the value is that of the digits saturated to the range. A
double quote and a character read as the character's code point modulo 256, and a lone
double quote is no literal. -/
theorem parse_reads_as (t : String) :
    (∀ rest v, (t.toList = '0' :: 'x' :: rest ∨ t.toList = '0' :: 'X' :: rest) →
      (parse t = some v ↔ ReadsAs 16 rest v)) ∧
    (∀ rest v, (t.toList = '0' :: 'b' :: rest ∨ t.toList = '0' :: 'B' :: rest) →
      (parse t = some v ↔ ReadsAs 2 rest v)) ∧
    (∀ c rest, t.toList = '"' :: c :: rest → parse t = some ↑(c.toNat % 256)) ∧
    (t.toList.head? ≠ some '"' →
      (∀ c rest, t.toList = '0' :: c :: rest → c ≠ 'x' ∧ c ≠ 'X' ∧ c ≠ 'b' ∧ c ≠ 'B') →
      ∀ v, parse t = some v ↔ ReadsAs 10 t.toList v) ∧
    (t.toList = ['"'] → parse t = none) := by
  refine ⟨?_, ?_, ?_, ?_, ?_⟩
  · rintro rest v (h | h) <;> simp only [parse, h] <;>
      exact radixValue_eq_some_iff (by decide) (by decide) rest v
  · rintro rest v (h | h) <;> simp only [parse, h] <;>
      exact radixValue_eq_some_iff (by decide) (by decide) rest v
  · intro c rest h
    simp only [parse, h]
  · intro hq hpre v
    rw [← String.ofList_toList (s := t), parse_ofList_decimal hq hpre, String.toList_ofList,
      radixValue_eq_some_iff (by decide) (by decide)]
  · intro h
    simp only [parse, h]

/-- Digits whose value already lies past the signed 64-bit range saturate, even when a
character that is no digit follows them. -/
theorem parse_saturates_before_non_digit : parse "99999999999999999999x" = some int64Max := by
  decide

end Literal

end ByteMachine
