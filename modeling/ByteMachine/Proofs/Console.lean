import ByteMachine.Console.Session
import ByteMachine.Proofs.Invariants
import ByteMachine.Proofs.Literal
import ByteMachine.Proofs.Run

/-!
# Stepping and running at the console

The console's `s n` steps the machine `n` times, printing each instruction and
stopping after a halt or at the first fault; `r n` runs it with limit `n`. The two
take the same steps. Where `r` stops without stepping, `s` still steps once: on a
halted machine that step changes nothing, and with the counter past ROM it fails,
again changing nothing. So both commands leave the machine in the same state, and
they report the same fault, except that `s` reports the step past the end of ROM
where `r` stops silently (`step_command_agrees_with_run_command`).
-/
namespace ByteMachine

namespace Machine

variable {m m' : Machine}

/-- With the counter past ROM, a step of a running machine fails and changes nothing. -/
theorem step_of_outside_rom (hh : m.halted = false) (hpc : romSize ≤ m.pc) :
    m.step = (m, .error (.romOutOfBounds m.pc)) := by
  have hd : Instruction.decodeAt m.rom.toArray m.pc = .error (.romOutOfBounds m.pc) := by
    refine (Instruction.decodeAt_eq_error_iff _ _ _).2 (.inl ⟨?_, rfl⟩)
    rw [Vector.getElem?_toArray, Vector.getElem?_eq_none_iff]
    exact hpc
  exact step_of_decodeAt_error hh hd

/-- A step that ends by halting leaves the machine halted. -/
theorem halted_of_step_eq_halted (hs : m.step = (m', .ok .halted)) : m'.halted = true := by
  cases hh : m.halted with
  | true =>
    rw [step_of_halted hh] at hs
    obtain ⟨rfl, -⟩ := Prod.mk.inj hs
    exact hh
  | false =>
    rcases step_cases hh with ⟨d, -, h⟩ | ⟨i, d, -, -, h⟩ | ⟨i, op, m₁, e, -, -, -, h⟩ |
      ⟨i, op, m₁, r, -, -, -, h⟩
    all_goals rw [h] at hs
    · cases hs
    · cases hs
    · cases hs
    · obtain ⟨rfl, hr⟩ := Prod.mk.inj hs
      obtain rfl := Except.ok.inj hr
      simp [finish_halted]

end Machine

namespace Text

/-- Characters that are not blank go into the word under way. -/
theorem wordsFrom_of_not_blank : ∀ (cs acc : List Char), (∀ c ∈ cs, isBlank c = false) →
    wordsFrom cs acc = if acc.reverse ++ cs = [] then [] else [String.ofList (acc.reverse ++ cs)]
  | [], acc, _ => by cases acc <;> simp [wordsFrom]
  | c :: cs, acc, h => by
    rw [wordsFrom, if_neg (by rw [h c List.mem_cons_self]; decide),
      wordsFrom_of_not_blank cs (c :: acc) fun d hd => h d (List.mem_cons_of_mem _ hd)]
    simp

/-- A blank ends the word under way, and the words after it are cut afresh. -/
theorem wordsFrom_append_blank {b : Char} (hb : isBlank b = true) (ys : List Char) :
    ∀ (xs acc : List Char), (∀ c ∈ xs, isBlank c = false) →
      wordsFrom (xs ++ b :: ys) acc =
        (if acc.reverse ++ xs = [] then [] else [String.ofList (acc.reverse ++ xs)]) ++
          wordsFrom ys []
  | [], acc, _ => by cases acc <;> simp [wordsFrom, hb]
  | x :: xs, acc, h => by
    rw [List.cons_append, wordsFrom, if_neg (by rw [h x List.mem_cons_self]; decide),
      wordsFrom_append_blank hb ys xs (x :: acc) fun d hd => h d (List.mem_cons_of_mem _ hd)]
    simp

/-- Two words with a blank between them are cut into those two words. -/
theorem words_append_blank_append {w v : String} (hw : ∀ c ∈ w.toList, isBlank c = false)
    (hw0 : w ≠ "") (hv : ∀ c ∈ v.toList, isBlank c = false) (hv0 : v ≠ "") :
    words (w ++ " " ++ v) = [w, v] := by
  have hsp : isBlank ' ' = true := by decide
  have hwl : w.toList ≠ [] := fun h => hw0 (String.toList_eq_nil_iff.1 h)
  have hvl : v.toList ≠ [] := fun h => hv0 (String.toList_eq_nil_iff.1 h)
  rw [words, String.toList_append, String.toList_append, List.append_assoc]
  rw [show " ".toList ++ v.toList = ' ' :: v.toList from rfl,
    wordsFrom_append_blank hsp v.toList w.toList [] hw, wordsFrom_of_not_blank v.toList [] hv]
  simp [hwl, hvl]

/-- A decimal number has no blank. -/
theorem isBlank_toString (n : Nat) : ∀ c ∈ (toString n).toList, isBlank c = false := by
  intro c hc
  rw [Nat.toString_eq_ofList_toDigits, String.toList_ofList] at hc
  have hd := Nat.isDigit_of_mem_toDigits (by decide) (by decide) hc
  simp only [Char.isDigit, Bool.and_eq_true, decide_eq_true_eq] at hd
  have h1 : 48 ≤ c.toNat := hd.1
  have h2 : c.toNat ≤ 57 := hd.2
  simp only [isBlank]
  simp
  omega

end Text

namespace Console

open Machine

namespace Session

/-! ## The steps of `s` against a run -/

/-- How the fault a stepping command stopped at stands to the end of a run over the
same steps: both name the same fault; or the run ended without one, and the stepping
stopped without one too, or on a step past the end of ROM where the run stopped. -/
def StopsLike : Option Fault → Machine × Except Fault Nat → Prop
  | some f, (_, .error f') => f = f'
  | none, (_, .ok _) => True
  | some f, (m, .ok _) => f = .romOutOfBounds m.pc
  | none, (_, .error _) => False

theorem stopsLike_map (e : Option Fault) (m : Machine) (r : Except Fault Nat) (k : Nat) :
    StopsLike e (m, (k + ·) <$> r) ↔ StopsLike e (m, r) := by
  cases e <;> cases r <;> rfl

/-- Stepping `n` times while printing ends where a run with limit `n` ends, and stops
at the run's fault, or where the run stopped without one, at no fault or at the
step past the end of ROM. -/
theorem stepPrinting_matches_run (n : Nat) (m : Machine) (out : String) :
    (stepPrinting n m out).1 = (m.run n).1 ∧ StopsLike (stepPrinting n m out).2.2 (m.run n) := by
  induction n generalizing m out with
  | zero => exact ⟨rfl, trivial⟩
  | succ n ih =>
    cases hc : m.canStep with
    | false =>
      -- the run takes no step; the one step `s` takes changes nothing
      have hrun : m.run (n + 1) = (m, .ok 0) := runFrom_of_canStep_false hc 0 (n + 1)
      rw [hrun]
      cases hh : m.halted with
      | true => simp [stepPrinting, step_of_halted hh, StopsLike]
      | false =>
        have hpc : romSize ≤ m.pc := by
          have := (canStep_eq_false_iff m).1 hc
          simpa [hh] using this
        simp [stepPrinting, step_of_outside_rom hh hpc, StopsLike]
    | true =>
      rcases hs : m.step with ⟨m₁, e | r⟩
      · have hrun : m.run (n + 1) = (m₁, .error e) := runFrom_succ_of_step_error hc hs 0 n
        simp [stepPrinting, hs, hrun, StopsLike]
      · have hrun : m.run (n + 1) = ((m₁.run n).1, (1 + ·) <$> (m₁.run n).2) := by
          rw [run, runFrom_succ_of_step_ok hc hs, runFrom_eq_run]
        rw [hrun]
        by_cases hr : r = .halted
        · -- a halt ends both: the run finds the machine halted and takes no more steps
          subst hr
          have hh := halted_of_step_eq_halted hs
          simp [stepPrinting, hs, run_of_halted hh, StopsLike, Functor.map, Except.map]
        · -- the step goes on: the remaining steps are those of a run from `m₁`
          obtain ⟨out', hstep⟩ : ∃ out', stepPrinting (n + 1) m out = stepPrinting n m₁ out' :=
            ⟨_, by simp only [stepPrinting, hs, if_neg hr]; rfl⟩
          rw [hstep, stopsLike_map]
          exact ih m₁ _

/-! ## The two commands -/

/-- The text a command prints to the error stream for the fault it stopped at, if any. -/
def faultText : Option Fault → String
  | none => ""
  | some f => "!> " ++ f.message ++ "\n"

/-- The fault a run stopped at, if any. -/
def runFault : Except Fault Nat → Option Fault
  | .error f => some f
  | .ok _ => none

/-- The number argument of a command reads back as the number. -/
theorem argument_toString (name : String) {n : Nat} (hn : n ≤ Numeral.word64Max) :
    argument [name, toString n] 2 Numeral.word64Max = .ok (some n) := by
  have hword : [name, toString n][2 - 1]? = some (toString n) := rfl
  rw [argument, hword]
  simp only [Numeral.readNat_toString hn]

/-- A command line of a one-letter command and a number is cut into those two words. -/
theorem words_letter_toString {c : Char} (hc : Text.isBlank c = false) (n : Nat) :
    Text.words (String.ofList [c] ++ " " ++ toString n) = [String.ofList [c], toString n] :=
  Text.words_append_blank_append (by simpa using hc) (by simp) (Text.isBlank_toString n)
    (fun h => Nat.toDigits_ne_nil (by rw [← String.toList_ofList (l := Nat.toDigits 10 n),
      ← Nat.toString_eq_ofList_toDigits, h, String.toList_empty]))

/-- `s n` steps `n` times, printing as it goes. -/
theorem respond_step_command (m : Machine) (labels : LabelTable) {n : Nat}
    (hn : n ≤ Numeral.word64Max) :
    respond m labels ("s " ++ toString n) =
      ((stepPrinting n m "").1,
        { out := (stepPrinting n m "").2.1, err := faultText (stepPrinting n m "").2.2 }) := by
  have hw := words_letter_toString (c := 's') (by decide) n
  rw [show String.ofList ['s'] ++ " " = "s " from rfl, show String.ofList ['s'] = "s" from rfl] at hw
  rw [respond, hw]
  simp only
  rw [command, argument_toString "s" hn]
  simp only [bind, Except.bind, Option.getD_some]
  rcases stepPrinting n m "" with ⟨m', out, _ | f⟩ <;> rfl

/-- `r n` runs with limit `n`. -/
theorem respond_run_command (m : Machine) (labels : LabelTable) {n : Nat}
    (hn : n ≤ Numeral.word64Max) :
    (respond m labels ("r " ++ toString n)).1 = (m.run n).1 ∧
      (respond m labels ("r " ++ toString n)).2.err = faultText (runFault (m.run n).2) := by
  have hw := words_letter_toString (c := 'r') (by decide) n
  rw [show String.ofList ['r'] ++ " " = "r " from rfl, show String.ofList ['r'] = "r" from rfl] at hw
  rw [respond, hw]
  simp only
  rw [command, argument_toString "r" hn]
  simp only [bind, Except.bind, Option.getD_some]
  rcases m.run n with ⟨m', f | k⟩ <;> exact ⟨rfl, rfl⟩

/-- The console's `s n` and `r n` leave the machine in the same state, for every
machine and every step count a position can hold, whether the steps end after `n`
steps, at a halt, with the counter past ROM, or at a fault. They report the same
fault too, except that `s` reports the step past the end of ROM where `r` stops
without one. -/
theorem step_command_agrees_with_run_command (m : Machine) (labels : LabelTable) (n : Nat)
    (hn : n ≤ Numeral.word64Max) :
    (respond m labels ("s " ++ toString n)).1 = (respond m labels ("r " ++ toString n)).1 ∧
    ((respond m labels ("s " ++ toString n)).2.err = (respond m labels ("r " ++ toString n)).2.err ∨
      (respond m labels ("r " ++ toString n)).2.err = "" ∧
      (respond m labels ("s " ++ toString n)).2.err =
        "!> " ++ (Fault.romOutOfBounds (respond m labels ("r " ++ toString n)).1.pc).message ++
          "\n") := by
  obtain ⟨hfst, hstop⟩ := stepPrinting_matches_run n m ""
  obtain ⟨hrfst, hrerr⟩ := respond_run_command m labels hn
  rw [respond_step_command m labels hn, hrfst, hrerr]
  refine ⟨hfst, ?_⟩
  revert hstop
  rcases m.run n with ⟨m', f' | k⟩ <;> rcases (stepPrinting n m "").2.2 with _ | f
  · exact False.elim
  · rintro rfl
    exact .inl rfl
  · intro _
    exact .inl rfl
  · rintro rfl
    exact .inr ⟨rfl, rfl⟩

/-- The two commands agree on the fresh machine with three steps. -/
theorem step_command_agrees_with_run_command_on_new :
    3 ≤ Numeral.word64Max ∧
      (respond Machine.new .empty ("s " ++ toString 3)).1 =
        (respond Machine.new .empty ("r " ++ toString 3)).1 ∧
      ((respond Machine.new .empty ("s " ++ toString 3)).2.err =
          (respond Machine.new .empty ("r " ++ toString 3)).2.err ∨
        (respond Machine.new .empty ("r " ++ toString 3)).2.err = "" ∧
        (respond Machine.new .empty ("s " ++ toString 3)).2.err =
          "!> " ++ (Fault.romOutOfBounds
            (respond Machine.new .empty ("r " ++ toString 3)).1.pc).message ++ "\n") :=
  ⟨by decide, step_command_agrees_with_run_command Machine.new .empty 3 (by decide)⟩

end Session

end Console

end ByteMachine
