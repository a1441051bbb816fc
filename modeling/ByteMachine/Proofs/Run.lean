import ByteMachine.Machine.Execute

/-!
# Runs compose

A run steps the machine until it halts, its counter leaves ROM, a step fails, or
the step limit is used up. The limit is only ever counted down, so a run with
limit `a + b` is a run with limit `a` followed, unless that one failed, by a run
with limit `b` from the machine it stopped at; the steps of the two add up, and a
failure of either is the failure of the whole (`run_add`). A run that stops
before its limit does so because the machine can no longer step
(`run_count_le`).

The count a run starts from is only carried along: `runFrom count` is `run`
with `count` added to the number of steps it reports (`runFrom_eq_run`).
-/
namespace ByteMachine

namespace Machine

/-- A machine cannot step exactly when it has halted or its counter is past ROM. -/
theorem canStep_eq_false_iff (m : Machine) :
    m.canStep = false ↔ m.halted = true ∨ romSize ≤ m.pc := by
  simp only [canStep, Bool.and_eq_false_iff, Bool.not_eq_false', decide_eq_false_iff_not,
    Nat.not_lt]

section RunFrom

variable {m m' : Machine} {count : Nat}

@[simp] theorem runFrom_zero (count : Nat) (m : Machine) : runFrom count 0 m = (m, .ok count) := rfl

/-- A machine that cannot step ends every run where it is, without a step. -/
theorem runFrom_of_canStep_false (h : m.canStep = false) (count limit : Nat) :
    runFrom count limit m = (m, .ok count) := by
  cases limit with
  | zero => rfl
  | succ limit => simp [runFrom, h]

theorem runFrom_succ_of_step_ok (hc : m.canStep = true) {r : Outcome} (hs : m.step = (m', .ok r))
    (count limit : Nat) : runFrom count (limit + 1) m = runFrom (count + 1) limit m' := by
  simp [runFrom, hc, hs]

theorem runFrom_succ_of_step_error (hc : m.canStep = true) {e : Fault}
    (hs : m.step = (m', .error e)) (count limit : Nat) :
    runFrom count (limit + 1) m = (m', .error e) := by
  simp [runFrom, hc, hs]

/-- The count a run starts from is added to the steps it reports and changes nothing else. -/
theorem runFrom_eq_run (count limit : Nat) (m : Machine) :
    runFrom count limit m = ((m.run limit).1, (count + ·) <$> (m.run limit).2) := by
  induction limit generalizing count m with
  | zero => rfl
  | succ limit ih =>
    unfold run
    cases hc : m.canStep with
    | false => simp [runFrom_of_canStep_false hc, Functor.map, Except.map]
    | true =>
      rcases hs : m.step with ⟨m₁, e | r⟩
      · simp [runFrom_succ_of_step_error hc hs, Functor.map, Except.map]
      · rw [runFrom_succ_of_step_ok hc hs, runFrom_succ_of_step_ok hc hs, ih (count + 1),
          ih (0 + 1)]
        cases (m₁.run limit).2 <;> simp [Functor.map, Except.map, Nat.add_assoc]

/-- A run with limit `a + b` is a run with limit `a` and then, unless it failed, a
run with limit `b` that goes on counting from where the first one stopped. -/
theorem runFrom_add (count a b : Nat) (m : Machine) :
    runFrom count (a + b) m =
      match runFrom count a m with
      | (m', .ok k) => runFrom k b m'
      | (m', .error e) => (m', .error e) := by
  induction a generalizing count m with
  | zero => simp
  | succ a ih =>
    cases hc : m.canStep with
    | false => simp [runFrom_of_canStep_false hc]
    | true =>
      rcases hs : m.step with ⟨m₁, e | r⟩
      · rw [show a + 1 + b = (a + b) + 1 by omega, runFrom_succ_of_step_error hc hs,
          runFrom_succ_of_step_error hc hs]
      · rw [show a + 1 + b = (a + b) + 1 by omega, runFrom_succ_of_step_ok hc hs,
          runFrom_succ_of_step_ok hc hs, ih]

/-- A run that does not fail takes at most its limit in steps, and stops short of
the limit only at a machine that cannot step. -/
theorem runFrom_count_le {limit k : Nat} (h : runFrom count limit m = (m', .ok k)) :
    count ≤ k ∧ k ≤ count + limit ∧ (k < count + limit → m'.canStep = false) := by
  induction limit generalizing count m with
  | zero =>
    simp only [runFrom_zero, Prod.mk.injEq, Except.ok.injEq] at h
    obtain ⟨rfl, rfl⟩ := h
    simp
  | succ limit ih =>
    cases hc : m.canStep with
    | false =>
      simp only [runFrom_of_canStep_false hc, Prod.mk.injEq, Except.ok.injEq] at h
      obtain ⟨rfl, rfl⟩ := h
      exact ⟨Nat.le_refl _, by omega, fun _ => hc⟩
    | true =>
      rcases hs : m.step with ⟨m₁, e | r⟩
      · rw [runFrom_succ_of_step_error hc hs] at h
        cases h
      · rw [runFrom_succ_of_step_ok hc hs] at h
        obtain ⟨h1, h2, h3⟩ := ih h
        exact ⟨by omega, by omega, fun hk => h3 (by omega)⟩

end RunFrom

/-! ## Runs from no steps -/

section Run

variable {m m' : Machine}

/-- Runs compose: a run with limit `a + b` ends where a run with limit `a` followed by
one with limit `b` ends, with the two counts added, or with the fault of whichever
of the two failed. -/
theorem run_add (m : Machine) (a b : Nat) :
    m.run (a + b) =
      match m.run a with
      | (m', .ok k) => ((m'.run b).1, (k + ·) <$> (m'.run b).2)
      | (m', .error e) => (m', .error e) := by
  unfold run
  rw [runFrom_add]
  rcases runFrom 0 a m with ⟨m₁, e | k⟩
  · rfl
  · exact runFrom_eq_run k b m₁

/-- A run takes at most its limit in steps, and fewer only when it ends halted or with
the counter past ROM. -/
theorem run_count_le {limit k : Nat} (h : m.run limit = (m', .ok k)) :
    k ≤ limit ∧ (k < limit → m'.halted = true ∨ romSize ≤ m'.pc) := by
  obtain ⟨-, h2, h3⟩ := runFrom_count_le h
  refine ⟨by omega, fun hk => ?_⟩
  exact (canStep_eq_false_iff m').1 (h3 (by omega))

/-- A run with limit `a + b` is a run with limit `a` and then, unless it failed, one
with limit `b` from where it stopped: the two end in the same machine, with the sum
of their counts or the same fault. Every run that does not fail takes at most its
limit in steps, and stops short of it only at a halted machine or with the counter
past ROM. -/
theorem run_composes (m : Machine) :
    (∀ a b, m.run (a + b) =
      match m.run a with
      | (m', .ok k) => ((m'.run b).1, (k + ·) <$> (m'.run b).2)
      | (m', .error e) => (m', .error e)) ∧
    ∀ limit m' k, m.run limit = (m', .ok k) →
      k ≤ limit ∧ (k < limit → m'.halted = true ∨ romSize ≤ m'.pc) :=
  ⟨run_add m, fun _ _ _ h => run_count_le h⟩

end Run

end Machine

end ByteMachine
