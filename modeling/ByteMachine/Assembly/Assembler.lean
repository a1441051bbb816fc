import ByteMachine.Assembly.Source
import ByteMachine.Isa.Kind
import ByteMachine.Isa.Register
import ByteMachine.Listing
import ByteMachine.Numeral

/-!
# The assembler

Assembly is two passes over the prepared statements.

The first pass gives each label the offset of the code that follows it. It
measures every statement that is not a directive by the width of the first kind,
in table order, whose mnemonic begins the statement's first word; a statement
with no such kind counts as zero bytes. A later label of the same name wins.

The second pass turns every word of every statement that is not a directive
into one byte. A word is, in this order of preference, a mnemonic (its opcode),
a register name (its index), a label (its offset) or a literal (its value).
The first word that is none of these, or whose value is not a byte, is the
error. Only when every word is a byte is the length checked against the ROM.
-/

namespace ByteMachine

/-- Why a source text does not assemble. -/
inductive AssemblyError where
  | unknownInstruction (word : String)
  | integerOverflow (value : Int)
  | romTooLarge (length : Nat)
  deriving DecidableEq, Repr

namespace AssemblyError

def message : AssemblyError → String
  | unknownInstruction w => "Unknown instruction '" ++ w ++ "'"
  | integerOverflow v => "Integer " ++ toString v ++ " outside of byte range"
  | romTooLarge n => "Program of " ++ toString n ++ " bytes doesn't fit into ROM (max size 256)"

end AssemblyError

/-- The result of assembly: the program's bytes and its labels. -/
structure Assembled where
  code : List UInt8
  labels : LabelTable
  deriving DecidableEq, Repr

namespace Assembly

/-- The number of bytes the first pass counts for a statement's first word. -/
def measure (head : String) : Nat :=
  match Kind.all.find? (fun k => k.mnemonic.isPrefixOf head) with
  | some k => k.width
  | none => 0

/-- The first pass from offset `offset` on: the labels of the statements. -/
def collectLabels (t : LabelTable) (offset : Nat) : List Statement → LabelTable
  | [] => t
  | s :: rest =>
    match directive? s with
    | some (.label name) => collectLabels (t.insert name offset) offset rest
    | some .const => collectLabels t offset rest
    | none => collectLabels t (offset + measure (s.headD "")) rest

/-- The value a word stands for, other than a mnemonic or a register. -/
def wordValue (labels : LabelTable) (word : String) : Option Int :=
  match labels.find? word with
  | some offset => some offset
  | none => Literal.parse word

/-- The byte a word stands for. -/
def resolve (labels : LabelTable) (word : String) : Except AssemblyError UInt8 :=
  match Kind.ofMnemonic? word with
  | some k => .ok k.opcode
  | none =>
    match Register.ofAlias? word with
    | some r => .ok r.index.val.toUInt8
    | none =>
      match wordValue labels word with
      | none => .error (.unknownInstruction word)
      | some v => if 0 ≤ v ∧ v < 256 then .ok v.toNat.toUInt8 else .error (.integerOverflow v)

/-- The words of the statements that are not directives, in order. -/
def codeWords (stmts : List Statement) : List String :=
  (stmts.filter fun s => (directive? s).isNone).flatten

end Assembly

def assemble (source : String) : Except AssemblyError Assembled := do
  let stmts := Assembly.prepare source
  let labels := Assembly.collectLabels LabelTable.empty 0 stmts
  let code ← (Assembly.codeWords stmts).mapM (Assembly.resolve labels)
  if 256 < code.length then throw (.romTooLarge code.length)
  return ⟨code, labels⟩

end ByteMachine
