import Mathlib.Data.List.Nodup
import ByteMachine.Proofs.Assembly
import ByteMachine.Proofs.Listing

/-!
# Printed listings name each label once, in byte order

A printed listing writes, for each entry of the walk over the code, one
`LABEL name` line for every label at the entry's offset and then the entry's
own line. The main result, `Listing.text_lists_labels_in_byte_order`, is that
for every label table in its canonical form the label lines of an entry are
exactly the names whose label is at that offset, each once, in increasing order
of their UTF-8 bytes. Such a list of names is unique, so the text does not
depend on how the table was built; a name appears once in the whole listing,
and only when its offset is the offset of an entry.

Tables keep their names in increasing order of code points. That order is the
order of the names' UTF-8 bytes (`Text.lt_iff_utf8Bytes_lt`): a character with
a smaller code point encodes to smaller bytes (`Text.utf8EncodeChar_lt`), and no
encoding of a character is a prefix of another's, so comparing the encodings of
two texts comes down to their first differing characters.
-/

namespace ByteMachine

namespace Text

/-! ## UTF-8 bytes keep the order of code points -/

def utf8Bytes (s : String) : List UInt8 :=
  s.toUTF8.data.toList

theorem utf8Bytes_eq (s : String) : utf8Bytes s = s.toList.flatMap String.utf8EncodeChar := by
  rw [utf8Bytes, String.toUTF8_eq_toByteArray, ← String.utf8Encode_toList, List.utf8Encode,
    List.toList_data_toByteArray]

/-- A number below 256 is the value of its byte. -/
theorem toNat_ofNat_byte {n : Nat} (h : n < 256) : (UInt8.ofNat n).toNat = n :=
  UInt8.toNat_ofNat_of_lt' h

/-- A code point cut into the six-bit groups that UTF-8 spreads over its bytes. -/
theorem sixBitGroups (v : Nat) :
    v = 64 * (v / 64) + v % 64 ∧ v / 64 = 64 * (v / 4096) + v / 64 % 64 ∧
      v / 4096 = 64 * (v / 262144) + v / 4096 % 64 := by
  omega

/-- A character with a smaller code point has smaller UTF-8 bytes. -/
theorem utf8EncodeChar_lt {c d : Char} (h : c < d) :
    String.utf8EncodeChar c < String.utf8EncodeChar d := by
  have hv : c.val.toNat < d.val.toNat := h
  have hd : d.val.toNat < 0x110000 := by
    rcases d.valid with h₁ | h₁ <;> omega
  have hc := sixBitGroups c.val.toNat
  have hd' := sixBitGroups d.val.toNat
  simp only [String.utf8EncodeChar]
  -- name the six-bit groups, so that `omega` compares them as plain numbers
  generalize c.val.toNat / 64 = a₁ at *
  generalize c.val.toNat / 4096 = a₂ at *
  generalize c.val.toNat / 262144 = a₃ at *
  generalize d.val.toNat / 64 = b₁ at *
  generalize d.val.toNat / 4096 = b₂ at *
  generalize d.val.toNat / 262144 = b₃ at *
  split_ifs <;>
    simp (disch := omega) only [List.cons_lt_cons_iff, List.nil_lt_cons, List.not_lt_nil,
      UInt8.lt_iff_toNat_lt, ← UInt8.toNat_inj, toNat_ofNat_byte] <;>
    omega

theorem utf8EncodeChar_ne_nil (c : Char) : String.utf8EncodeChar c ≠ [] := by
  rw [← List.length_pos_iff, String.length_utf8EncodeChar]
  exact c.utf8Size_pos

/-- No character's encoding is a prefix of another's: decoding reads the whole
first character back whatever follows it. -/
theorem eq_of_prefix_utf8EncodeChar {c d : Char}
    (h : String.utf8EncodeChar c <+: String.utf8EncodeChar d) : c = d := by
  obtain ⟨rest, hrest⟩ := h
  have hdec := ByteArray.utf8DecodeChar?_utf8EncodeChar_append (b := rest.toByteArray) (c := c)
  have hdec' := ByteArray.utf8DecodeChar?_utf8EncodeChar_append (b := ByteArray.empty) (c := d)
  rw [← List.toByteArray_append, hrest] at hdec
  rw [ByteArray.append_empty, hdec] at hdec'
  exact Option.some.inj hdec'

/-- Lists that differ before either ends compare the same way whatever follows them. -/
theorem append_lt_append_of_differ :
    ∀ {a b : List UInt8}, a < b → ¬a <+: b → ∀ x y : List UInt8, a ++ x < b ++ y
  | [], b, _, hp, _, _ => absurd ⟨b, List.nil_append b⟩ hp
  | _ :: _, [], h, _, _, _ => absurd h (List.not_lt_nil _)
  | p :: a, q :: b, h, hp, x, y => by
    rcases List.cons_lt_cons_iff.1 h with hpq | ⟨rfl, hab⟩
    · exact List.cons_lt_cons_iff.2 (.inl hpq)
    · have hp' : ¬a <+: b := fun h' => hp (List.cons_prefix_cons.2 ⟨rfl, h'⟩)
      exact List.cons_lt_cons_iff.2 (.inr ⟨rfl, append_lt_append_of_differ hab hp' x y⟩)

theorem flatMap_utf8EncodeChar_lt :
    ∀ {s t : List Char}, s < t → s.flatMap String.utf8EncodeChar < t.flatMap String.utf8EncodeChar
  | [], [], h => absurd h (List.not_lt_nil _)
  | _ :: _, [], h => absurd h (List.not_lt_nil _)
  | [], d :: t, _ => by
    obtain ⟨b, bs, hb⟩ := List.exists_cons_of_ne_nil (utf8EncodeChar_ne_nil d)
    rw [List.flatMap_nil, List.flatMap_cons, hb, List.cons_append]
    exact List.nil_lt_cons _ _
  | c :: s, d :: t, h => by
    rw [List.flatMap_cons, List.flatMap_cons]
    rcases List.cons_lt_cons_iff.1 h with hcd | ⟨rfl, hst⟩
    · exact append_lt_append_of_differ (utf8EncodeChar_lt hcd)
        (fun hp => (Char.ne_of_lt hcd) (eq_of_prefix_utf8EncodeChar hp)) _ _
    · exact List.append_left_lt (flatMap_utf8EncodeChar_lt hst)

/-- Texts compare as their UTF-8 bytes do. -/
theorem lt_iff_utf8Bytes_lt {s t : String} : s < t ↔ utf8Bytes s < utf8Bytes t := by
  rw [utf8Bytes_eq, utf8Bytes_eq]
  show s.toList < t.toList ↔ _
  refine ⟨flatMap_utf8EncodeChar_lt, fun h => ?_⟩
  by_contra hst
  rcases List.le_iff_lt_or_eq.1 (List.not_lt.1 hst) with hts | heq
  · exact List.lt_asymm h (flatMap_utf8EncodeChar_lt hts)
  · rw [heq] at h
    exact List.lt_irrefl _ h

end Text

/-! ## Tables in canonical form -/

namespace LabelTable

/-- A table in canonical form: its entries in strictly increasing order of name,
so that no name is there twice. Every table built from `empty` by `insert` is. -/
def Ordered (t : LabelTable) : Prop :=
  t.entries.Pairwise fun a b => a.1 < b.1

theorem mem_insertEntry {name : String} {offset : Nat} {e : String × Nat} :
    ∀ {es : List (String × Nat)}, e ∈ insertEntry name offset es → e = (name, offset) ∨ e ∈ es
  | [], h => by simpa [insertEntry] using h
  | (n, o) :: rest, h => by
    unfold insertEntry at h
    split_ifs at h
    · simpa using h
    · rcases List.mem_cons.1 h with rfl | h
      · exact .inl rfl
      · exact .inr (List.mem_cons_of_mem _ h)
    · rcases List.mem_cons.1 h with rfl | h
      · exact .inr List.mem_cons_self
      · exact (mem_insertEntry h).imp id (List.mem_cons_of_mem _)

theorem pairwise_insertEntry (name : String) (offset : Nat) :
    ∀ {es : List (String × Nat)}, es.Pairwise (fun a b => a.1 < b.1) →
      (insertEntry name offset es).Pairwise (fun a b => a.1 < b.1)
  | [], _ => List.pairwise_singleton _ _
  | (n, o) :: rest, h => by
    rw [List.pairwise_cons] at h
    unfold insertEntry
    split_ifs with hlt heq
    · -- the new name goes first, before `n` and so before everything after it
      refine List.Pairwise.cons (fun e he => ?_) (List.Pairwise.cons h.1 h.2)
      rcases List.mem_cons.1 he with rfl | he
      · exact hlt
      · exact String.lt_trans hlt (h.1 e he)
    · subst heq
      exact List.Pairwise.cons h.1 h.2
    · -- the new name goes after `n`, which is then smaller than it
      have hgt : n < name := by
        rcases List.le_iff_lt_or_eq.1 (List.not_lt.1 hlt) with hn | hn
        · exact hn
        · exact absurd (String.toList_inj.1 hn).symm heq
      refine List.Pairwise.cons (fun e he => ?_) (pairwise_insertEntry name offset h.2)
      rcases mem_insertEntry he with rfl | he
      · exact hgt
      · exact h.1 e he

theorem ordered_empty : empty.Ordered :=
  List.Pairwise.nil

theorem Ordered.insert {t : LabelTable} (h : t.Ordered) (name : String) (offset : Nat) :
    (t.insert name offset).Ordered :=
  pairwise_insertEntry name offset h

/-- A table built from any list of pairs is in canonical form. -/
theorem ordered_ofList (pairs : List (String × Nat)) : (ofList pairs).Ordered := by
  suffices ∀ t : LabelTable, t.Ordered → (pairs.foldl (fun t p => t.insert p.1 p.2) t).Ordered from
    this empty ordered_empty
  induction pairs with
  | nil => exact fun t h => h
  | cons p rest ih => exact fun t h => ih _ (h.insert p.1 p.2)

/-- The assembler's first pass keeps a table in canonical form. -/
theorem ordered_collectLabels :
    ∀ {t : LabelTable} (offset : Nat) (stmts : List Assembly.Statement), t.Ordered →
      (Assembly.collectLabels t offset stmts).Ordered
  | _, _, [], ht => ht
  | t, offset, s :: rest, ht => by
    unfold Assembly.collectLabels
    split
    · exact ordered_collectLabels _ rest (ht.insert _ _)
    · exact ordered_collectLabels _ rest ht
    · exact ordered_collectLabels _ rest ht

/-- The labels of an assembled program form a table in canonical form. -/
theorem ordered_of_assemble {source : String} {a : Assembled} (h : assemble source = .ok a) :
    a.labels.Ordered := by
  have hlabels : a.labels = Assembly.collectLabels empty 0 (Assembly.prepare source) := by
    simp only [assemble] at h
    cases hm : (Assembly.codeWords (Assembly.prepare source)).mapM
        (Assembly.resolve (Assembly.collectLabels empty 0 (Assembly.prepare source))) with
    | error e => simp only [hm, bind, Except.bind, reduceCtorEq] at h
    | ok code =>
      simp only [hm, bind, Except.bind] at h
      split at h
      · cases h
      · cases h
        rfl
  rw [hlabels]
  exact ordered_collectLabels 0 _ ordered_empty

section Ordered

variable {t : LabelTable} (h : t.Ordered)
include h

/-- In a table in canonical form, a name has an offset exactly when the pair is an entry. -/
theorem Ordered.find?_eq_some_iff {n : String} {o : Nat} : t.find? n = some o ↔ (n, o) ∈ t.entries := by
  obtain ⟨es⟩ := t
  simp only [Ordered] at h
  simp only [find?]
  induction es with
  | nil => simp
  | cons e rest ih =>
    obtain ⟨m, p⟩ := e
    rw [List.pairwise_cons] at h
    rw [lookup_cons_eq_ite]
    by_cases hn : n = m
    · subst hn
      have hrest : (n, o) ∉ rest := fun hr => String.lt_irrefl n (h.1 _ hr)
      simp [hrest, eq_comm]
    · simp [hn, ih h.2]

theorem Ordered.mem_namesAt_iff {n : String} {o : Nat} : n ∈ t.namesAt o ↔ t.find? n = some o := by
  rw [h.find?_eq_some_iff, namesAt]
  simp

theorem Ordered.pairwise_namesAt (o : Nat) : (t.namesAt o).Pairwise (· < ·) :=
  List.pairwise_map.2 (List.Pairwise.filter _ h)

end Ordered

end LabelTable

/-! ## The label lines of a printed listing -/

namespace Listing

/-- `names o` lists, for every offset `o`, the names whose label is at `o`, each
once, in increasing order of their UTF-8 bytes. -/
def LabelsInByteOrder (t : LabelTable) (names : Nat → List String) : Prop :=
  ∀ o, (names o).Pairwise (fun a b => Text.utf8Bytes a < Text.utf8Bytes b) ∧
    ∀ n, n ∈ names o ↔ t.find? n = some o

section LabelLines

variable {t : LabelTable} (ht : t.Ordered)
include ht

theorem labelsInByteOrder_namesAt : LabelsInByteOrder t t.namesAt := fun o =>
  ⟨(ht.pairwise_namesAt o).imp Text.lt_iff_utf8Bytes_lt.1, fun _ => ht.mem_namesAt_iff⟩

/-- The names at each offset are determined: a list in strictly increasing order
is fixed by its members. -/
theorem LabelsInByteOrder.eq_namesAt {names : Nat → List String} (hn : LabelsInByteOrder t names) :
    names = t.namesAt := by
  funext o
  have hsorted : (names o).Pairwise (· < ·) := (hn o).1.imp Text.lt_iff_utf8Bytes_lt.2
  have hmem : ∀ n, n ∈ names o ↔ n ∈ t.namesAt o := fun n =>
    ((hn o).2 n).trans ht.mem_namesAt_iff.symm
  refine List.Perm.eq_of_pairwise (fun a b _ _ hab hba => absurd hba (String.lt_asymm hab)) hsorted
    (ht.pairwise_namesAt o) ?_
  exact (List.perm_ext_iff_of_nodup (hsorted.imp String.ne_of_lt)
    ((ht.pairwise_namesAt o).imp String.ne_of_lt)).2 hmem

end LabelLines

/-- The walk lists its entries at strictly increasing offsets. -/
theorem pairwise_walkFrom (code : Array UInt8) (pos : Nat) :
    (walkFrom code pos).Pairwise (fun a b => a.1 < b.1) := by
  fun_induction walkFrom code pos with
  | case1 pos h d ih =>
    refine List.Pairwise.cons (fun e he => ?_) ih
    have := (mem_walkFrom he).1
    have := one_le_advance d
    omega
  | case2 => exact .nil

/-- The printed listing of an image under a label table in canonical form. Before
each entry's own line `OO: text` stand the lines `LABEL name` of the labels at
the entry's offset: exactly those names, each once, in increasing order of their
UTF-8 bytes; any list of the names with that property gives the same text. So
each label is printed at most once, and exactly when its offset is the offset of
an entry. -/
theorem text_lists_labels_in_byte_order (code : Array UInt8) {t : LabelTable} (ht : t.Ordered) :
    LabelsInByteOrder t t.namesAt ∧
      ∀ names, LabelsInByteOrder t names →
        text code t = String.join ((walk code).map fun e =>
          String.join ((names e.1).map fun n => "LABEL " ++ n ++ "\n") ++
            Text.hex 2 e.1 ++ ": " ++ entryText e.2 ++ "\n") ∧
        ((walk code).flatMap fun e => names e.1).Nodup ∧
        ∀ n, n ∈ (walk code).flatMap (fun e => names e.1) ↔ ∃ e ∈ walk code, t.find? n = some e.1 := by
  refine ⟨labelsInByteOrder_namesAt ht, fun names hn => ?_⟩
  have hnames := hn.eq_namesAt ht
  subst hnames
  refine ⟨rfl, ?_, fun n => ?_⟩
  · -- names at two different entries are different, since each name has one offset
    refine List.nodup_flatMap.2 ⟨fun e _ => (ht.pairwise_namesAt e.1).imp String.ne_of_lt, ?_⟩
    refine (pairwise_walkFrom code 0).imp fun {a b} hab n hna hnb => ?_
    have hoff := (ht.mem_namesAt_iff.1 hna).symm.trans (ht.mem_namesAt_iff.1 hnb)
    exact absurd (Option.some.inj hoff) (Nat.ne_of_lt hab)
  · simp only [List.mem_flatMap, ht.mem_namesAt_iff]

/-- `IMM 10 02`, `INC 02`, `JMP 03` and an unknown byte, with two labels at the
`INC`, one inside it and one past the end. -/
theorem loop_listing_lists_labels :
    let code : Array UInt8 := #[0x81, 0x10, 0x02, 0x68, 0x02, 0x64, 0x03, 0xFF]
    let t := LabelTable.ofList [("LOOP", 3), ("INSIDE", 4), ("AGAIN", 3), ("PAST", 9)]
    t.Ordered ∧ LabelsInByteOrder t t.namesAt ∧
      ∀ names, LabelsInByteOrder t names →
        text code t = String.join ((walk code).map fun e =>
          String.join ((names e.1).map fun n => "LABEL " ++ n ++ "\n") ++
            Text.hex 2 e.1 ++ ": " ++ entryText e.2 ++ "\n") ∧
        ((walk code).flatMap fun e => names e.1).Nodup ∧
        ∀ n, n ∈ (walk code).flatMap (fun e => names e.1) ↔ ∃ e ∈ walk code, t.find? n = some e.1 :=
  ⟨LabelTable.ordered_ofList _, text_lists_labels_in_byte_order _ (LabelTable.ordered_ofList _)⟩

end Listing

end ByteMachine
