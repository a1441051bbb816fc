import ByteMachine.Proofs.Assembly

/-!
# Constants do not depend on where they are defined

`CONST name value…` makes every word equal to `name`, anywhere in the source,
stand for the value words of the last definition of `name`
(`expandConstants_eq_lastDefinition`). The definitions themselves produce no
code and take no room: the first pass skips them and the second pass drops
them. So two sources whose statements differ only in where their constant
definitions stand, with the definitions of each name in the same order,
assemble to the same result (`constants_are_position_independent`).

The proof follows the assembler's stages. The table of constants answers each
name from that name's definitions alone (`lookup_constants`). Expanding leaves a
definition as it is, and preparing keeps it a definition
(`directive?_prepareStatement_const`). The two passes do not see definitions
(`collectLabels_filter`, `codeWords_filter`), so only the statements that are no
definitions count, and those stand in the same order in both sources.
-/

namespace ByteMachine

namespace Assembly

/-! ## Constant definitions -/

/-- The name a statement defines a constant for, when it is a definition. -/
def constName? (s : Statement) : Option String :=
  if directive? s = some .const then s[1]? else none

/-- The last definition of the constant `name`. -/
def lastDefinition (stmts : List Statement) (name : String) : Option Statement :=
  (stmts.filter fun s => constName? s = some name).getLast?

/-- `b` is `a` with its constant definitions moved: the other statements stand
in the same order, and so do the definitions of each name. -/
def ConstantsMoved (a b : List Statement) : Prop :=
  ∀ k : Option String, a.filter (fun s => constName? s = k) = b.filter (fun s => constName? s = k)

/-- A statement with every word that names a constant replaced by the value
words `values` gives it; a definition is left as it is. -/
def expandWith (values : String → Option Statement) (s : Statement) : Statement :=
  if directive? s = some .const then s else s.flatMap fun w => (values w).getD [w]

theorem expandConstants_eq (stmts : List Statement) :
    expandConstants stmts = stmts.map (expandWith fun w => (constants stmts).lookup w) :=
  rfl

theorem constName?_eq_none_iff {s : Statement} : constName? s = none ↔ directive? s ≠ some .const := by
  unfold constName?
  split
  · rename_i h
    obtain ⟨kw, name, value, rfl, -⟩ := eq_cons_of_directive?_eq_const h
    simp [h]
  · simpa

/-- The table of constants lists every definition, later ones first. -/
theorem constants_eq (stmts : List Statement) :
    constants stmts = (stmts.filterMap fun s => (constName? s).map fun n => (n, s.drop 2)).reverse := by
  unfold constants
  congr 1
  apply List.filterMap_congr
  intro s _
  cases hd : directive? s with
  | none => simp [constName?, hd]
  | some d =>
    cases d with
    | label n => simp [constName?, hd]
    | const =>
      obtain ⟨kw, name, value, rfl, -⟩ := eq_cons_of_directive?_eq_const hd
      simp [constName?, hd]

/-- A lookup finds the first entry of the name. -/
theorem lookup_eq_head?_filter {β : Type} (l : List (String × β)) (k : String) :
    l.lookup k = (l.filter fun e => e.1 = k).head?.map Prod.snd := by
  induction l with
  | nil => rfl
  | cons e rest ih =>
    obtain ⟨n, v⟩ := e
    by_cases h : n = k
    · subst h
      simp
    · have hk : (k == n) = false := beq_eq_false_iff_ne.2 (Ne.symm h)
      simp [List.lookup_cons, hk, h, ih]

/-- The definitions of one name, as entries of the table of constants. -/
theorem filter_filterMap_constName? (stmts : List Statement) (w : String) :
    ((stmts.filterMap fun s => (constName? s).map fun n => (n, s.drop 2)).filter fun e => e.1 = w) =
      (stmts.filter fun s => constName? s = some w).map fun s => (w, s.drop 2) := by
  induction stmts with
  | nil => rfl
  | cons s rest ih =>
    cases hc : constName? s with
    | none => simp [hc, ih]
    | some n =>
      by_cases hn : n = w
      · subst hn
        simp [hc, ih]
      · simp [hc, ih, hn]

/-- The table of constants gives each name the value words of its last definition. -/
theorem lookup_constants (stmts : List Statement) (w : String) :
    (constants stmts).lookup w = (lastDefinition stmts w).map (List.drop 2) := by
  rw [lookup_eq_head?_filter, constants_eq, List.filter_reverse, filter_filterMap_constName?,
    List.head?_reverse, List.getLast?_map, Option.map_map, lastDefinition]
  rfl

/-- Expanding constants replaces each word that names a constant, outside the
definitions, by the value words of the name's last definition; the value words
are not expanded again. -/
theorem expandConstants_eq_lastDefinition (stmts : List Statement) :
    expandConstants stmts =
      stmts.map (expandWith fun w => (lastDefinition stmts w).map (List.drop 2)) := by
  rw [expandConstants_eq]
  simp only [lookup_constants]

/-! ## The passes do not see definitions -/

/-- A definition stays a definition once upper-cased and completed. -/
theorem directive?_prepareStatement_const {s : Statement} (h : directive? s = some .const) :
    directive? (prepareStatement s) = some .const := by
  obtain ⟨kw, name, value, rfl, -, hconst, hvalue⟩ := eq_cons_of_directive?_eq_const h
  obtain ⟨v, vs, rfl⟩ := List.exists_cons_of_ne_nil hvalue
  have hup : Text.upper kw = "CONST" := upper_of_keywordIs hconst keywords_ascii.2
  have hprep : prepareStatement (kw :: name :: v :: vs) =
      "CONST" :: Text.upper name :: Text.upper v :: vs.map Text.upper := by
    rw [prepareStatement, List.map_cons, List.map_cons, List.map_cons, hup]
    rfl
  rw [hprep, directive?, if_neg (by decide), if_pos ⟨rfl, List.cons_ne_nil _ _⟩]

/-- The first pass skips definitions. -/
theorem collectLabels_filter (t : LabelTable) (offset : Nat) (stmts : List Statement) :
    collectLabels t offset (stmts.filter fun s => directive? s ≠ some .const) =
      collectLabels t offset stmts := by
  induction stmts generalizing t offset with
  | nil => rfl
  | cons s rest ih =>
    by_cases hs : directive? s = some .const
    · rw [List.filter_cons_of_neg (by simpa using hs), ih]
      simp only [collectLabels, hs]
    · rw [List.filter_cons_of_pos (by simpa using hs)]
      cases hd : directive? s with
      | none => simp only [collectLabels, hd, ih]
      | some d =>
        cases d with
        | label n => simp only [collectLabels, hd, ih]
        | const => exact absurd hd hs

/-- The second pass drops definitions. -/
theorem codeWords_filter (stmts : List Statement) :
    codeWords (stmts.filter fun s => directive? s ≠ some .const) = codeWords stmts := by
  unfold codeWords
  rw [List.filter_filter]
  congr 2
  funext s
  cases hd : directive? s with
  | none => simp
  | some d => simp

/-- Only the statements that define no constant can leave anything but a
definition for the passes. -/
theorem filter_map_prepare (values : String → Option Statement) (stmts : List Statement) :
    ((stmts.map fun s => prepareStatement (expandWith values s)).filter
        fun s => directive? s ≠ some .const) =
      (((stmts.filter fun s => constName? s = none).map fun s => prepareStatement (expandWith values s)).filter
        fun s => directive? s ≠ some .const) := by
  rw [List.filter_map, List.filter_map, List.filter_filter]
  congr 2
  funext s
  by_cases hs : directive? s = some .const
  · -- a definition is left as it is by expanding, and stays one when prepared
    have hkeep : expandWith values s = s := if_pos hs
    have hc : constName? s ≠ none := fun hn => constName?_eq_none_iff.1 hn hs
    simp [hkeep, directive?_prepareStatement_const hs, hc]
  · simp [constName?_eq_none_iff.2 hs]

/-- Sources whose prepared statements agree once definitions are dropped
assemble alike. -/
theorem assemble_eq_of_filter_prepare {src₁ src₂ : String}
    (h : (prepare src₁).filter (fun s => directive? s ≠ some .const) =
      (prepare src₂).filter (fun s => directive? s ≠ some .const)) :
    assemble src₁ = assemble src₂ := by
  have hlabels : collectLabels LabelTable.empty 0 (prepare src₁) =
      collectLabels LabelTable.empty 0 (prepare src₂) := by
    rw [← collectLabels_filter, h, collectLabels_filter]
  have hcode : codeWords (prepare src₁) = codeWords (prepare src₂) := by
    rw [← codeWords_filter, h, codeWords_filter]
  simp only [assemble, hlabels, hcode]

/-- Constants do not depend on where they are defined: two sources whose
statements differ only in where the constant definitions stand, with the
definitions of each name in the same order, assemble to the same code and
labels, or fail alike. Every word outside the definitions that names a constant
stands for the value words of that name's last definition, which are not
expanded again. -/
theorem constants_are_position_independent {src₁ src₂ : String}
    (h : ConstantsMoved (statements src₁) (statements src₂)) :
    assemble src₁ = assemble src₂ ∧
      ∀ stmts : List Statement, expandConstants stmts =
        stmts.map (expandWith fun w => (lastDefinition stmts w).map (List.drop 2)) := by
  refine ⟨assemble_eq_of_filter_prepare ?_, expandConstants_eq_lastDefinition⟩
  have hvalues : (fun w => (lastDefinition (statements src₁) w).map (List.drop 2)) =
      fun w => (lastDefinition (statements src₂) w).map (List.drop 2) := by
    funext w
    rw [lastDefinition, lastDefinition, h (some w)]
  rw [prepare_eq, prepare_eq, expandConstants_eq_lastDefinition, expandConstants_eq_lastDefinition,
    hvalues, List.map_map, List.map_map]
  rw [Function.comp_def, filter_map_prepare, h none, ← filter_map_prepare]

/-- A constant used before its definition, and the same program with the
definition first. -/
theorem ten_used_before_definition :
    ConstantsMoved (statements "IMM TEN 0\nCONST TEN 10") (statements "CONST TEN 10\nIMM TEN 0") ∧
      assemble "IMM TEN 0\nCONST TEN 10" = assemble "CONST TEN 10\nIMM TEN 0" ∧
      ∀ stmts : List Statement, expandConstants stmts =
        stmts.map (expandWith fun w => (lastDefinition stmts w).map (List.drop 2)) := by
  have hs₁ : statements "IMM TEN 0\nCONST TEN 10" = [["IMM", "TEN", "0"], ["CONST", "TEN", "10"]] := by
    decide
  have hs₂ : statements "CONST TEN 10\nIMM TEN 0" = [["CONST", "TEN", "10"], ["IMM", "TEN", "0"]] := by
    decide
  have hc₁ : constName? ["IMM", "TEN", "0"] = none := by decide
  have hc₂ : constName? ["CONST", "TEN", "10"] = some "TEN" := by decide
  have hmoved : ConstantsMoved (statements "IMM TEN 0\nCONST TEN 10") (statements "CONST TEN 10\nIMM TEN 0") := by
    intro k
    rw [hs₁, hs₂]
    simp only [List.filter_cons, List.filter_nil, hc₁, hc₂]
    split_ifs with hnone hten
    · rw [decide_eq_true_eq] at hnone hten
      exact absurd (hnone.trans hten.symm) (by decide)
    all_goals rfl
  exact ⟨hmoved, constants_are_position_independent hmoved⟩

end Assembly

end ByteMachine
