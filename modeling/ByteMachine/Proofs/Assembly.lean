import Mathlib.Data.List.Forall2
import ByteMachine.Assembly.Assembler
import ByteMachine.Isa.Instruction
import ByteMachine.Proofs.Words

/-!
# Assembling a well-formed program

A well-formed program is a list of items: labels, and instructions whose
operands are byte literals, register names or label names. The statements of
its source read as those items (`Reads`), its label names are distinct and
read as nothing else, and its code fits the ROM.

The assembler makes two passes over the statements. The first gives each label
the offset of the code after it, measuring each statement by the mnemonic its
first word begins with; the second turns every word into a byte. The main
result, `assemble_of_wellFormed`, is that for a well-formed program the two
passes agree with the items: the code is each instruction's encoding, in order,
with every label operand replaced by the label's offset, and the label table
holds exactly those offsets. Forward and backward references are alike.

The proof follows the passes. Expanding constants changes nothing, since no
statement defines one. Upper-casing a statement turns the mnemonic into the
kind's own and leaves literal values alone (`Literal.parse_upper`). Then the
first pass is a fold of `LabelTable.insert` over `labelOffsets`, and the second
resolves each word to the byte the item gives it.
-/

namespace ByteMachine

/-! ## Label tables -/

namespace LabelTable

theorem lookup_cons_eq_ite (m n : String) (o : Nat) (es : List (String × Nat)) :
    ((n, o) :: es).lookup m = if m = n then some o else es.lookup m := by
  by_cases h : m = n
  · subst h
    simp
  · simp [List.lookup_cons, beq_eq_false_iff_ne.2 h, h]

theorem lookup_insertEntry (name m : String) (offset : Nat) :
    ∀ es : List (String × Nat),
      (insertEntry name offset es).lookup m = if m = name then some offset else es.lookup m
  | [] => by
    simp [insertEntry, lookup_cons_eq_ite]
  | (n, o) :: rest => by
    unfold insertEntry
    by_cases hlt : name < n
    · rw [if_pos hlt]
      simp only [lookup_cons_eq_ite]
    · rw [if_neg hlt]
      by_cases heq : name = n
      · subst heq
        rw [if_pos rfl]
        by_cases h : m = name <;> simp [lookup_cons_eq_ite, h]
      · -- the entry stays in front of the inserted one
        rw [if_neg heq, lookup_cons_eq_ite, lookup_cons_eq_ite, lookup_insertEntry name m offset rest]
        by_cases h : m = n
        · subst h
          simp [Ne.symm heq]
        · simp [h]

@[simp] theorem find?_insert (t : LabelTable) (name m : String) (offset : Nat) :
    (t.insert name offset).find? m = if m = name then some offset else t.find? m :=
  lookup_insertEntry name m offset t.entries

/-- Inserting pairs of distinct names one after another finds each name's offset. -/
theorem find?_foldl_insert :
    ∀ (pairs : List (String × Nat)), (pairs.map Prod.fst).Nodup → ∀ (t : LabelTable) (m : String),
      (pairs.foldl (fun t p => t.insert p.1 p.2) t).find? m = (pairs.lookup m).or (t.find? m)
  | [], _, t, m => by simp
  | (n, o) :: pairs, hl, t, m => by
    rw [List.map_cons, List.nodup_cons] at hl
    rw [List.foldl_cons, find?_foldl_insert pairs hl.2, find?_insert, lookup_cons_eq_ite]
    by_cases h : m = n
    · subst h
      have hnone : pairs.lookup m = none :=
        List.lookup_eq_none_iff.2 fun p hp => by
          have : p.1 ≠ m := fun he => hl.1 (List.mem_map.2 ⟨p, hp, he⟩)
          simpa [bne, beq_iff_eq] using Ne.symm this
      simp [hnone]
    · simp [h]

theorem find?_ofList {pairs : List (String × Nat)} (hl : (pairs.map Prod.fst).Nodup) (m : String) :
    (ofList pairs).find? m = pairs.lookup m := by
  rw [ofList, find?_foldl_insert pairs hl]
  simp [empty, find?]

end LabelTable

namespace Assembly

/-! ## Well-formed programs -/

/-- An operand as a well-formed program writes it: a byte (a decimal, hexadecimal or
binary literal), a register by its name, or a label by its upper-case name. -/
inductive Operand where
  | literal (value : UInt8)
  | register (r : Register)
  | label (name : String)
  deriving DecidableEq, Repr

/-- A statement of a well-formed program. -/
inductive Item where
  | label (name : String)
  | instr (kind : Kind) (operands : List Operand)
  deriving DecidableEq, Repr

namespace Item

def width : Item → Nat
  | label _ => 0
  | instr k _ => k.width

def name? : Item → Option String
  | label n => some n
  | instr _ _ => none

end Item

/-- The label names of a program, in order. -/
def labelNames (items : List Item) : List String :=
  items.filterMap Item.name?

def codeWidth : List Item → Nat
  | [] => 0
  | it :: rest => it.width + codeWidth rest

/-- The offset of each label, counting from `offset`: the width of the
instructions before it. -/
def labelOffsets : Nat → List Item → List (String × Nat)
  | _, [] => []
  | offset, .label n :: rest => (n, offset) :: labelOffsets offset rest
  | offset, .instr k _ :: rest => labelOffsets (offset + k.width) rest

/-- The byte an operand stands for, given the offsets of the labels. -/
def Operand.byte (offsets : List (String × Nat)) : Operand → UInt8
  | .literal v => v
  | .register r => r.index.val.toUInt8
  | .label n => ((offsets.lookup n).getD 0).toUInt8

/-- The code of an item: an instruction's encoding, its operands fitted to its
kind, so that the old `IMM v` is `IMM v 0`. -/
def Item.code (offsets : List (String × Nat)) : Item → List UInt8
  | .label _ => []
  | .instr k ops => (Instruction.withOperands k (ops.map (Operand.byte offsets))).encode

/-- The code of a program: the items' code in order, labels at their offsets. -/
def program (items : List Item) : List UInt8 :=
  items.flatMap (Item.code (labelOffsets 0 items))

/-- How a word reads as an operand, where `names` are the program's labels. A
quoted character is no operand of a well-formed program. -/
def OperandWord (names : List String) (w : String) : Operand → Prop
  | .literal v => Literal.parse w = some (v.toNat : Int) ∧ w.toList.head? ≠ some '"'
  | .register r => Register.ofAlias? (Text.upper w) = some r
  | .label n => Text.upper w = n ∧ n ∈ names

instance decidableOperandWord (names : List String) (w : String) :
    ∀ op, Decidable (OperandWord names w op)
  | .literal _ => inferInstanceAs (Decidable (_ ∧ _))
  | .register _ => inferInstanceAs (Decidable (_ = _))
  | .label _ => inferInstanceAs (Decidable (_ ∧ _))

/-- How the words of one statement read as an item: `LABEL name` or `LABEL name:`,
the keyword in any case; or a mnemonic in any case and its operands, where
`IMM v` may leave out the register. -/
inductive Reads (names : List String) : Statement → Item → Prop
  | label {kw w name : String} (hkw : keywordIs kw "LABEL" = true) (hname : name ≠ "")
      (hcolon : ':' ∉ name.toList) (hw : w = name ∨ w = name ++ ":") :
      Reads names [kw, w] (.label (Text.upper name))
  | instr {m : String} {ws : List String} {k : Kind} {ops : List Operand}
      (hm : Text.upper m = k.mnemonic) (hops : List.Forall₂ (OperandWord names) ws ops)
      (hlen : ops.length = k.arity ∨ (k = .imm ∧ ops.length = 1)) :
      Reads names (m :: ws) (.instr k ops)

/-- A well-formed program: the statements read as the items, the label names are
distinct and read as no mnemonic, register or literal, the code fits the ROM, and
no label that an operand names stands at its end. -/
structure WellFormed (stmts : List Statement) (items : List Item) : Prop where
  reads : List.Forall₂ (Reads (labelNames items)) stmts items
  nodup : (labelNames items).Nodup
  not_mnemonic : ∀ n ∈ labelNames items, Kind.ofMnemonic? n = none
  not_alias : ∀ n ∈ labelNames items, Register.ofAlias? n = none
  not_literal : ∀ n ∈ labelNames items, Literal.parse n = none
  fits : codeWidth items ≤ 256
  inside : ∀ k ops, Item.instr k ops ∈ items → ∀ n, Operand.label n ∈ ops →
    (labelOffsets 0 items).lookup n ≠ some 256

theorem labelNames_label (n : String) (rest : List Item) :
    labelNames (.label n :: rest) = n :: labelNames rest := rfl

theorem labelNames_instr (k : Kind) (ops : List Operand) (rest : List Item) :
    labelNames (.instr k ops :: rest) = labelNames rest := rfl

theorem codeWidth_cons (it : Item) (rest : List Item) :
    codeWidth (it :: rest) = it.width + codeWidth rest := rfl

theorem map_fst_labelOffsets :
    ∀ (offset : Nat) (items : List Item), (labelOffsets offset items).map Prod.fst = labelNames items
  | _, [] => rfl
  | offset, .label n :: rest => by
    rw [labelOffsets, List.map_cons, map_fst_labelOffsets offset rest, labelNames_label]
  | offset, .instr k ops :: rest => by
    rw [labelOffsets, map_fst_labelOffsets, labelNames_instr]

/-- A label stands no further than the end of the code. -/
theorem le_of_mem_labelOffsets :
    ∀ {offset : Nat} {items : List Item} {p : String × Nat},
      p ∈ labelOffsets offset items → p.2 ≤ offset + codeWidth items
  | _, [], _, hp => by cases hp
  | offset, .label n :: rest, p, hp => by
    rw [labelOffsets, List.mem_cons] at hp
    rw [codeWidth_cons, Item.width]
    rcases hp with rfl | hp
    · simp
    · have := le_of_mem_labelOffsets hp
      omega
  | offset, .instr k ops :: rest, p, hp => by
    rw [labelOffsets] at hp
    rw [codeWidth_cons, Item.width]
    have := le_of_mem_labelOffsets hp
    omega

theorem isSome_lookup_labelOffsets {offset : Nat} {items : List Item} {n : String} :
    ((labelOffsets offset items).lookup n).isSome ↔ n ∈ labelNames items := by
  rw [List.lookup_isSome_iff, ← map_fst_labelOffsets offset items, List.mem_map]
  simp only [beq_iff_eq]
  constructor <;> rintro ⟨p, hp, rfl⟩ <;> exact ⟨p, hp, rfl⟩

theorem le_of_lookup_labelOffsets {items : List Item} {n : String} {o : Nat}
    (h : (labelOffsets 0 items).lookup n = some o) : o ≤ codeWidth items := by
  obtain ⟨l₁, l₂, hl, -⟩ := List.lookup_eq_some_iff.1 h
  have := le_of_mem_labelOffsets (show (n, o) ∈ labelOffsets 0 items by rw [hl]; simp)
  simpa using this

theorem length_code (offsets : List (String × Nat)) : ∀ it : Item, (it.code offsets).length = it.width
  | .label _ => rfl
  | .instr k ops => by
    simp [Item.code, Instruction.encode, Instruction.withOperands, Instruction.length_fit,
      Item.width, Kind.width_eq_succ_arity]

theorem length_flatMap_code (offsets : List (String × Nat)) :
    ∀ items : List Item, (items.flatMap (Item.code offsets)).length = codeWidth items
  | [] => rfl
  | it :: rest => by
    rw [List.flatMap_cons, List.length_append, length_code, length_flatMap_code offsets rest,
      codeWidth_cons]

/-! ## Words of the instruction set -/

theorem eq_mnemonic_of_ofMnemonic? {w : String} {k : Kind} (h : Kind.ofMnemonic? w = some k) :
    w = k.mnemonic := by
  have := List.find?_some h
  simp only [beq_iff_eq] at this
  exact this.symm

theorem mem_aliases_of_ofAlias? {w : String} {r : Register} (h : Register.ofAlias? w = some r) :
    (w, r) ∈ Register.aliases := by
  unfold Register.ofAlias? at h
  obtain ⟨e, he, rfl⟩ := Option.map_eq_some_iff.1 h
  have hw := List.find?_some he
  simp only [beq_iff_eq] at hw
  rw [← hw]
  exact List.mem_of_find?_eq_some he

theorem kind_mem_all (k : Kind) : k ∈ Kind.all := by
  cases k <;> simp [Kind.all]

/-- What the directives and the first pass make of each mnemonic: it reads as no
literal and no keyword, and it measures its own kind's width, so that a shorter
mnemonic that begins a longer one (`LT` and `LTE`) never stands first. -/
theorem mnemonics_spec :
    Kind.all.all (fun k => Literal.parse k.mnemonic == none && !keywordIs k.mnemonic "LABEL" &&
      !keywordIs k.mnemonic "CONST" && k.mnemonic != "CONST" &&
      measure k.mnemonic == k.width) = true := by
  decide +kernel

theorem mnemonic_spec (k : Kind) :
    Literal.parse k.mnemonic = none ∧ keywordIs k.mnemonic "LABEL" = false ∧
      keywordIs k.mnemonic "CONST" = false ∧ k.mnemonic ≠ "CONST" ∧
      measure k.mnemonic = k.width := by
  have := List.all_eq_true.1 mnemonics_spec k (kind_mem_all k)
  simpa only [Bool.and_eq_true, beq_iff_eq, Bool.not_eq_true', bne_iff_ne, ne_eq, and_assoc]
    using this

theorem parse_mnemonic (k : Kind) : Literal.parse k.mnemonic = none :=
  (mnemonic_spec k).1

/-- A register name is no mnemonic and no literal. -/
theorem aliases_spec :
    ∀ e ∈ Register.aliases, Kind.ofMnemonic? e.1 = none ∧ Literal.parse e.1 = none := by
  decide

theorem ofMnemonic?_of_parse {w : String} {v : Int} (h : Literal.parse w = some v) :
    Kind.ofMnemonic? w = none := by
  cases hk : Kind.ofMnemonic? w with
  | none => rfl
  | some k =>
    rw [eq_mnemonic_of_ofMnemonic? hk, parse_mnemonic] at h
    cases h

theorem ofAlias?_of_parse {w : String} {v : Int} (h : Literal.parse w = some v) :
    Register.ofAlias? w = none := by
  cases ha : Register.ofAlias? w with
  | none => rfl
  | some r =>
    rw [(aliases_spec _ (mem_aliases_of_ofAlias? ha)).2] at h
    cases h

theorem ofMnemonic?_of_ofAlias? {w : String} {r : Register} (h : Register.ofAlias? w = some r) :
    Kind.ofMnemonic? w = none :=
  (aliases_spec _ (mem_aliases_of_ofAlias? h)).1

/-! ## Resolving one word -/

section Resolve

variable {labels : LabelTable} {w : String}

@[simp] theorem resolve_mnemonic (labels : LabelTable) (k : Kind) :
    resolve labels k.mnemonic = .ok k.opcode := by
  simp [resolve]

theorem resolve_of_ofAlias? {r : Register} (h : Register.ofAlias? w = some r) :
    resolve labels w = .ok r.index.val.toUInt8 := by
  simp [resolve, ofMnemonic?_of_ofAlias? h, h]

theorem resolve_of_find? {o : Nat} (hm : Kind.ofMnemonic? w = none)
    (ha : Register.ofAlias? w = none) (hf : labels.find? w = some o) (ho : o < 256) :
    resolve labels w = .ok o.toUInt8 := by
  simp only [resolve, wordValue, hm, ha, hf]
  rw [if_pos ⟨by omega, by omega⟩]
  simp

theorem resolve_of_parse {v : UInt8} (hp : Literal.parse w = some (v.toNat : Int))
    (hf : labels.find? w = none) : resolve labels w = .ok v := by
  have hv := v.toNat_lt
  simp only [resolve, wordValue, ofMnemonic?_of_parse hp, ofAlias?_of_parse hp, hf, hp]
  rw [if_pos ⟨by omega, by omega⟩]
  simp

end Resolve

/-! ## Statements before the passes -/

/-- A statement as the two passes see it: in upper case, `IMM v` completed. -/
def prepareStatement (s : Statement) : Statement :=
  completeImmediate (s.map Text.upper)

theorem prepare_eq (source : String) :
    prepare source = (expandConstants (statements source)).map prepareStatement := rfl

/-- A word that is a keyword in some ASCII case upper-cases to the keyword. -/
theorem upper_of_keywordIs {w kw : String} (h : keywordIs w kw = true)
    (hkw : ∀ c ∈ kw.toList, c.toNat < 0x80) : Text.upper w = kw := by
  have hmap : w.toList.map Char.toUpper = kw.toList := by simpa [keywordIs] using h
  have hascii : ∀ c ∈ w.toList, c.toNat < 0x80 := fun c hc =>
    Text.toNat_lt_of_toUpper (hkw _ (hmap ▸ List.mem_map_of_mem hc))
  apply String.ext
  rw [Text.toList_upper, Text.flatMap_upperChar_of_ascii _ hascii, hmap]

/-- The directive keywords are ASCII. -/
theorem keywords_ascii :
    (∀ c ∈ "LABEL".toList, c.toNat < 0x80) ∧ (∀ c ∈ "CONST".toList, c.toNat < 0x80) := by
  have h : "LABEL".toList.all (fun c => decide (c.toNat < 0x80)) = true ∧
      "CONST".toList.all (fun c => decide (c.toNat < 0x80)) = true := by
    decide
  simpa only [List.all_eq_true, decide_eq_true_eq] using h

theorem keywordIs_mnemonic (k : Kind) :
    keywordIs k.mnemonic "LABEL" = false ∧ keywordIs k.mnemonic "CONST" = false :=
  ⟨(mnemonic_spec k).2.1, (mnemonic_spec k).2.2.1⟩

theorem mnemonic_ne_const (k : Kind) : k.mnemonic ≠ "CONST" :=
  (mnemonic_spec k).2.2.2.1

theorem measure_mnemonic (k : Kind) : measure k.mnemonic = k.width :=
  (mnemonic_spec k).2.2.2.2

/-- A statement that starts with a mnemonic is no directive. -/
theorem directive?_mnemonic (k : Kind) (rest : Statement) : directive? (k.mnemonic :: rest) = none := by
  cases rest with
  | nil => rfl
  | cons w rest => simp [directive?, keywordIs_mnemonic]

/-- A constant definition is a directive word, a name and at least one value word. -/
theorem eq_cons_of_directive?_eq_const {s : Statement} (h : directive? s = some .const) :
    ∃ kw name value, s = kw :: name :: value ∧ keywordIs kw "LABEL" = false ∧
      keywordIs kw "CONST" = true ∧ value ≠ [] := by
  unfold directive? at h
  split at h
  · rename_i kw name rest
    split at h
    · dsimp only at h
      split at h <;> cases h
    · rename_i hlabel
      split at h
      · rename_i hconst
        exact ⟨kw, name, rest, rfl, Bool.eq_false_iff.2 hlabel, hconst.1, hconst.2⟩
      · cases h
  · cases h

/-- No statement of a well-formed program defines a constant. -/
theorem Reads.directive?_ne_const {names : List String} {s : Statement} {it : Item}
    (hr : Reads names s it) : directive? s ≠ some .const := by
  intro hc
  obtain ⟨kw, name, value, rfl, -, hkw, -⟩ := eq_cons_of_directive?_eq_const hc
  have hup := upper_of_keywordIs hkw keywords_ascii.2
  cases hr with
  | label hlabel _ _ _ =>
    rw [upper_of_keywordIs hlabel keywords_ascii.1] at hup
    exact absurd hup (by decide)
  | instr hm _ _ =>
    rw [hm] at hup
    exact mnemonic_ne_const _ hup

theorem forall_directive?_ne_const {names : List String} :
    ∀ {stmts : List Statement} {items : List Item}, List.Forall₂ (Reads names) stmts items →
      ∀ s ∈ stmts, directive? s ≠ some .const
  | _, _, .nil => by simp
  | _, _, .cons hr hrest => by
    intro s hs
    rcases List.mem_cons.1 hs with rfl | hs
    · exact hr.directive?_ne_const
    · exact forall_directive?_ne_const hrest s hs

/-- Without constant definitions, expanding constants changes nothing. -/
theorem expandConstants_eq_self {stmts : List Statement}
    (h : ∀ s ∈ stmts, directive? s ≠ some .const) : expandConstants stmts = stmts := by
  have hc : constants stmts = [] := by
    simp only [constants, List.reverse_eq_nil_iff, List.filterMap_eq_nil_iff]
    intro s hs
    split
    · exact absurd ‹_› (h _ hs)
    · rfl
  unfold expandConstants
  simp only [hc, List.lookup_nil, Option.getD_none]
  conv => rhs; rw [← List.map_id stmts]
  apply List.map_congr_left
  intro s _
  split <;> simp

/-- A label statement names the word up to its colon, in upper case. -/
theorem takeWhile_upper {w name : String} (hcolon : ':' ∉ name.toList)
    (hw : w = name ∨ w = name ++ ":") :
    (Text.upper w).toList.takeWhile (· ≠ ':') = (Text.upper name).toList := by
  have hnc := Text.colon_not_mem_upper hcolon
  have hall : ∀ c ∈ (Text.upper name).toList, decide (c ≠ ':') = true := by
    intro c hc
    simp only [decide_eq_true_eq]
    rintro rfl
    exact hnc hc
  have hcolon' : (Text.upper ":").toList.takeWhile (· ≠ ':') = [] := rfl
  rcases hw with rfl | rfl
  · conv_lhs => rw [← List.append_nil (Text.upper w).toList]
    rw [List.takeWhile_append_of_pos hall, List.takeWhile_nil, List.append_nil]
  · rw [Text.upper_append, String.toList_append, List.takeWhile_append_of_pos hall, hcolon',
      List.append_nil]

theorem directive?_prepareStatement_label {kw w name : String} (hkw : keywordIs kw "LABEL" = true)
    (hname : name ≠ "") (hcolon : ':' ∉ name.toList) (hw : w = name ∨ w = name ++ ":") :
    directive? (prepareStatement [kw, w]) = some (.label (Text.upper name)) := by
  have hprep : prepareStatement [kw, w] = ["LABEL", Text.upper w] := by
    rw [prepareStatement, List.map_cons, List.map_singleton, upper_of_keywordIs hkw keywords_ascii.1]
    rfl
  have hne : (Text.upper name).isEmpty = false := by
    rw [Bool.eq_false_iff]
    intro he
    exact Text.upper_ne_empty hname (String.isEmpty_iff.1 he)
  rw [hprep, directive?, if_pos (show keywordIs "LABEL" "LABEL" = true from rfl)]
  dsimp only
  rw [takeWhile_upper hcolon hw, String.ofList_toList, hne]
  rfl

/-- Completing `IMM v` touches no statement that already has its operands. -/
theorem completeImmediate_mnemonic {k : Kind} {ws : List String} (h : ws.length = k.arity) :
    completeImmediate (k.mnemonic :: ws) = k.mnemonic :: ws := by
  unfold completeImmediate
  split
  · rename_i v heq
    rw [List.cons.injEq] at heq
    obtain ⟨hk, rfl⟩ := heq
    have : k = .imm := Option.some.inj ((Kind.ofMnemonic?_mnemonic k).symm.trans (by rw [hk]; rfl))
    subst this
    cases h
  · rfl

/-- An instruction statement before the passes: the kind's mnemonic, the
operand words in upper case, and a zero register for the old `IMM v`. -/
theorem prepareStatement_instr {m : String} {ws : List String} {k : Kind}
    (hm : Text.upper m = k.mnemonic) (hlen : ws.length = k.arity ∨ (k = .imm ∧ ws.length = 1)) :
    prepareStatement (m :: ws) =
      k.mnemonic :: (ws.map Text.upper ++ List.replicate (k.arity - ws.length) "0") := by
  rw [prepareStatement, List.map_cons, hm]
  rcases hlen with hl | ⟨rfl, hl⟩
  · rw [completeImmediate_mnemonic (by rw [List.length_map, hl]), hl, Nat.sub_self,
      List.replicate_zero, List.append_nil]
  · obtain ⟨w, rfl⟩ := List.length_eq_one_iff.1 hl
    rfl

/-! ## The first pass -/

/-- The first pass inserts each label at the offset `labelOffsets` gives it. -/
theorem collectLabels_prepare {names : List String} :
    ∀ {stmts : List Statement} {items : List Item}, List.Forall₂ (Reads names) stmts items →
      ∀ (t : LabelTable) (offset : Nat),
        collectLabels t offset (stmts.map prepareStatement) =
          (labelOffsets offset items).foldl (fun t p => t.insert p.1 p.2) t
  | _, _, .nil, _, _ => rfl
  | _, _, .cons hr hrest, t, offset => by
    cases hr with
    | label hkw hname hcolon hw =>
      simp only [List.map_cons, collectLabels, directive?_prepareStatement_label hkw hname hcolon hw,
        labelOffsets, List.foldl_cons]
      exact collectLabels_prepare hrest _ _
    | instr hm hops hlen =>
      have hl := hops.length_eq
      simp only [List.map_cons, collectLabels, prepareStatement_instr hm (by rw [hl]; exact hlen),
        directive?_mnemonic, List.headD_cons, measure_mnemonic, labelOffsets]
      exact collectLabels_prepare hrest _ _

/-! ## The second pass -/

theorem codeWords_cons (s : Statement) (ss : List Statement) :
    codeWords (s :: ss) = (if (directive? s).isNone then s else []) ++ codeWords ss := by
  unfold codeWords
  rw [List.filter_cons]
  split <;> simp_all

section SecondPass

variable {stmts : List Statement} {items : List Item}

theorem find?_ofList_labelOffsets (h : WellFormed stmts items) (n : String) :
    (LabelTable.ofList (labelOffsets 0 items)).find? n = (labelOffsets 0 items).lookup n :=
  LabelTable.find?_ofList (by rw [map_fst_labelOffsets]; exact h.nodup) n

/-- Every operand word resolves to the byte its operand stands for. -/
theorem resolve_operandWord (h : WellFormed stmts items) {w : String} {op : Operand}
    (hw : OperandWord (labelNames items) w op)
    (hin : ∀ n, op = .label n → (labelOffsets 0 items).lookup n ≠ some 256) :
    resolve (LabelTable.ofList (labelOffsets 0 items)) (Text.upper w) =
      .ok (op.byte (labelOffsets 0 items)) := by
  cases op with
  | literal v =>
    obtain ⟨hp, hq⟩ := hw
    have hp' := Literal.parse_upper hp hq
    -- a literal names no label, since no label name reads as a literal
    have hnot : Text.upper w ∉ labelNames items := fun hn => by
      rw [h.not_literal _ hn] at hp'
      cases hp'
    apply resolve_of_parse hp'
    rw [find?_ofList_labelOffsets h, ← Option.not_isSome_iff_eq_none, isSome_lookup_labelOffsets]
    exact hnot
  | register r => exact resolve_of_ofAlias? hw
  | label n =>
    obtain ⟨rfl, hn⟩ := hw
    obtain ⟨o, ho⟩ := Option.isSome_iff_exists.1 (isSome_lookup_labelOffsets.2 hn)
    have hle := le_of_lookup_labelOffsets ho
    have hne : o ≠ 256 := fun he => hin _ rfl (he ▸ ho)
    have hfits := h.fits
    rw [resolve_of_find? (h.not_mnemonic _ hn) (h.not_alias _ hn)
      ((find?_ofList_labelOffsets h _).trans ho) (by omega)]
    simp [Operand.byte, ho]

theorem mapM_resolve_operands (h : WellFormed stmts items) :
    ∀ {ws : List String} {ops : List Operand}, List.Forall₂ (OperandWord (labelNames items)) ws ops →
      (∀ n, Operand.label n ∈ ops → (labelOffsets 0 items).lookup n ≠ some 256) →
      (ws.map Text.upper).mapM (resolve (LabelTable.ofList (labelOffsets 0 items))) =
        .ok (ops.map (Operand.byte (labelOffsets 0 items)))
  | _, _, .nil, _ => rfl
  | _, _, .cons hw hrest, hin => by
    rw [List.map_cons, List.mapM_cons,
      resolve_operandWord h hw fun n hn => hin n (hn ▸ List.mem_cons_self),
      mapM_resolve_operands h hrest fun n hn => hin n (List.mem_cons_of_mem _ hn)]
    rfl

/-- The zero register that completes `IMM v` resolves to zero. -/
theorem mapM_resolve_zeros (h : WellFormed stmts items) (r : Nat) :
    (List.replicate r "0").mapM (resolve (LabelTable.ofList (labelOffsets 0 items))) =
      .ok (List.replicate r 0) := by
  have h0 : resolve (LabelTable.ofList (labelOffsets 0 items)) "0" = .ok 0 := by
    have hzero : OperandWord (labelNames items) "0" (.literal 0) := ⟨rfl, by decide⟩
    have := resolve_operandWord h hzero fun n hn => by cases hn
    rwa [show Text.upper "0" = "0" from rfl] at this
  induction r with
  | zero => rfl
  | succ r ih =>
    rw [List.replicate_succ, List.mapM_cons, h0, ih]
    rfl

theorem mapM_resolve_instr (h : WellFormed stmts items) {m : String} {ws : List String} {k : Kind}
    {ops : List Operand} (hm : Text.upper m = k.mnemonic)
    (hops : List.Forall₂ (OperandWord (labelNames items)) ws ops)
    (hlen : ops.length = k.arity ∨ (k = .imm ∧ ops.length = 1))
    (hin : ∀ n, Operand.label n ∈ ops → (labelOffsets 0 items).lookup n ≠ some 256) :
    (prepareStatement (m :: ws)).mapM (resolve (LabelTable.ofList (labelOffsets 0 items))) =
      .ok ((Item.instr k ops).code (labelOffsets 0 items)) := by
  have hl := hops.length_eq
  rw [prepareStatement_instr hm (by rw [hl]; exact hlen), List.mapM_cons, resolve_mnemonic,
    List.mapM_append, mapM_resolve_operands h hops hin, mapM_resolve_zeros h]
  have hle : ops.length ≤ k.arity := by
    rcases hlen with hl' | ⟨rfl, hl'⟩
    · exact Nat.le_of_eq hl'
    · rw [hl']
      decide
  have htake : (ops.map (Operand.byte (labelOffsets 0 items))).take k.arity =
      ops.map (Operand.byte (labelOffsets 0 items)) :=
    List.take_of_length_le (by rw [List.length_map]; exact hle)
  simp only [Item.code, Instruction.encode, Instruction.withOperands, Instruction.fit, hl, htake,
    List.length_map]
  rfl

/-- The second pass turns the statements of items of the program into the items' code. -/
theorem mapM_resolve_codeWords (h : WellFormed stmts items) :
    ∀ {ss : List Statement} {its : List Item}, List.Forall₂ (Reads (labelNames items)) ss its →
      (∀ it ∈ its, it ∈ items) →
      (codeWords (ss.map prepareStatement)).mapM (resolve (LabelTable.ofList (labelOffsets 0 items))) =
        .ok (its.flatMap (Item.code (labelOffsets 0 items)))
  | _, _, .nil, _ => rfl
  | _, _, .cons hr hrest, hsub => by
    have ih := mapM_resolve_codeWords h hrest fun it hit => hsub it (List.mem_cons_of_mem _ hit)
    rw [List.map_cons, codeWords_cons, List.mapM_append, List.flatMap_cons]
    cases hr with
    | label hkw hname hcolon hw =>
      rw [directive?_prepareStatement_label hkw hname hcolon hw, ih]
      rfl
    | @instr m ws k ops hm hops hlen =>
      have hdir : directive? (prepareStatement (m :: ws)) = none := by
        rw [prepareStatement_instr hm (by rw [hops.length_eq]; exact hlen)]
        exact directive?_mnemonic _ _
      rw [hdir, Option.isNone_none, if_pos rfl,
        mapM_resolve_instr h hm hops hlen (h.inside _ _ (hsub _ List.mem_cons_self)), ih]
      rfl

end SecondPass

/-! ## Assembling a well-formed program -/

/-- A well-formed program assembles to the encodings of its instructions, in
order, each label operand replaced by the label's offset, whether the label
comes before or after it; its label table holds exactly the labels' offsets. -/
theorem assemble_of_wellFormed {source : String} {items : List Item}
    (h : WellFormed (statements source) items) :
    ∃ labels : LabelTable, assemble source = .ok ⟨program items, labels⟩ ∧
      ∀ n, labels.find? n = (labelOffsets 0 items).lookup n := by
  have hprep : prepare source = (statements source).map prepareStatement := by
    rw [prepare_eq, expandConstants_eq_self (forall_directive?_ne_const h.reads)]
  have hlabels : collectLabels LabelTable.empty 0 (prepare source) =
      LabelTable.ofList (labelOffsets 0 items) := by
    rw [hprep, collectLabels_prepare h.reads]
    rfl
  have hcode : (codeWords (prepare source)).mapM
      (resolve (LabelTable.ofList (labelOffsets 0 items))) = .ok (program items) := by
    rw [hprep]
    exact mapM_resolve_codeWords h h.reads fun it hit => hit
  have hfits : ¬ 256 < (program items).length := by
    rw [program, length_flatMap_code]
    exact Nat.not_lt.2 h.fits
  refine ⟨LabelTable.ofList (labelOffsets 0 items), ?_, find?_ofList_labelOffsets h⟩
  simp only [assemble, hlabels, hcode]
  show (if 256 < (program items).length then _ else _) = _
  rw [if_neg hfits]
  rfl

/-- A program that uses one label before it is defined and one after, a
register name, and the old `IMM v`. -/
theorem assemble_forward_and_backward_labels :
    WellFormed (statements "LABEL start\nimm 7 0 # seven\nIMM 5\ncpy ADDR 1; jmp end\n...\nLABEL end:\njmp Start")
      [.label "START", .instr .imm [.literal 7, .literal 0], .instr .imm [.literal 5],
        .instr .cpy [.register Register.addr, .literal 1], .instr .jmp [.label "END"],
        .instr .nop [], .label "END", .instr .jmp [.label "START"]] ∧
    ∃ labels : LabelTable,
      assemble "LABEL start\nimm 7 0 # seven\nIMM 5\ncpy ADDR 1; jmp end\n...\nLABEL end:\njmp Start" =
        .ok ⟨[129, 7, 0, 129, 5, 0, 145, 8, 1, 100, 12, 0, 100, 0], labels⟩ ∧
      ∀ n, labels.find? n = [("START", 0), ("END", 12)].lookup n := by
  have hs : statements "LABEL start\nimm 7 0 # seven\nIMM 5\ncpy ADDR 1; jmp end\n...\nLABEL end:\njmp Start" =
      [["LABEL", "start"], ["imm", "7", "0"], ["IMM", "5"], ["cpy", "ADDR", "1"], ["jmp", "end"],
        ["NOP"], ["LABEL", "end:"], ["jmp", "Start"]] := by
    decide +kernel
  have hstart : Text.upper "start" = "START" := rfl
  have hend : Text.upper "end" = "END" := rfl
  have h : WellFormed (statements "LABEL start\nimm 7 0 # seven\nIMM 5\ncpy ADDR 1; jmp end\n...\nLABEL end:\njmp Start")
      [.label "START", .instr .imm [.literal 7, .literal 0], .instr .imm [.literal 5],
        .instr .cpy [.register Register.addr, .literal 1], .instr .jmp [.label "END"],
        .instr .nop [], .label "END", .instr .jmp [.label "START"]] := by
    rw [hs]
    refine ⟨?_, by decide +kernel, by decide +kernel, by decide +kernel, by decide +kernel, by decide, ?_⟩
    · refine .cons ?_ (.cons ?_ (.cons ?_ (.cons ?_ (.cons ?_ (.cons ?_ (.cons ?_ (.cons ?_ .nil)))))))
      · rw [← hstart]
        exact .label (by decide +kernel) (by decide +kernel) (by decide +kernel) (.inl rfl)
      · exact .instr (by decide +kernel) (by decide +kernel) (.inl rfl)
      · exact .instr (by decide +kernel) (by decide +kernel) (.inr ⟨rfl, rfl⟩)
      · exact .instr (by decide +kernel) (by decide +kernel) (.inl rfl)
      · exact .instr (by decide +kernel) (by decide +kernel) (.inl rfl)
      · exact .instr (by decide +kernel) .nil (.inl rfl)
      · rw [← hend]
        exact .label (by decide +kernel) (by decide +kernel) (by decide +kernel) (.inr rfl)
      · exact .instr (by decide +kernel) (by decide +kernel) (.inl rfl)
    · -- every label stands inside the fourteen bytes of code
      intro _ _ _ n _ hn
      exact absurd (le_of_lookup_labelOffsets hn) (by decide)
  exact ⟨h, assemble_of_wellFormed h⟩

end Assembly

end ByteMachine
