/-!
# Instruction kinds

The instruction set has forty-nine kinds. Each has a one-byte opcode, a
mnemonic, and a list of operands, one byte each. The two top bits of the
opcode give the instruction's width in bytes, less one; the table below keeps
that in step with the operand list (see `width_eq_succ_arity`).

The table's order matters: the assembler's first pass measures a statement by
the first kind in this order whose mnemonic begins the statement's first word.
-/

namespace ByteMachine

/-- What an operand byte stands for: a register index, a constant byte, a position
in ROM (the target of a jump), or a position in RAM. -/
inductive OperandKind where
  | register
  | immediate
  | romAddress
  | ramAddress
  deriving DecidableEq, Repr

/-- The kinds of instruction, in the order of the opcode table. -/
inductive Kind where
  | nop | imm | hlt | cpy | clr | rst | clf | cnf | czf | cof
  | jnf | jnn | jzf | jnz | jof | jno | eq | lt | lte | neq
  | gte | gt | nnd | or | and | nor | not | xor | jmp | jmr
  | inc | dec | add | sub | mul | mod | shl | shr | min | max
  | rld | rsv | rlr | rsr | psh | pop | seg | ado | mlo
  deriving DecidableEq, Repr

namespace Kind

/-- All kinds, in the order of the opcode table. -/
def all : List Kind :=
  [.nop, .imm, .hlt, .cpy, .clr, .rst, .clf, .cnf, .czf, .cof, .jnf, .jnn, .jzf, .jnz, .jof, .jno, .eq, .lt, .lte, .neq, .gte, .gt, .nnd, .or, .and, .nor, .not, .xor, .jmp, .jmr, .inc, .dec, .add, .sub, .mul, .mod, .shl, .shr, .min, .max, .rld, .rsv, .rlr, .rsr, .psh, .pop, .seg, .ado, .mlo]

def opcode : Kind → UInt8
  | .nop => 0x00
  | .imm => 0x81
  | .hlt => 0x07
  | .cpy => 0x91
  | .clr => 0x50
  | .rst => 0x10
  | .clf => 0x08
  | .cnf => 0x09
  | .czf => 0x0A
  | .cof => 0x0B
  | .jnf => 0x49
  | .jnn => 0x4D
  | .jzf => 0x4A
  | .jnz => 0x4E
  | .jof => 0x4B
  | .jno => 0x4F
  | .eq => 0xF1
  | .lt => 0xF2
  | .lte => 0xF3
  | .neq => 0xF5
  | .gte => 0xF6
  | .gt => 0xF7
  | .nnd => 0xE0
  | .or => 0xE1
  | .and => 0xE2
  | .nor => 0xE3
  | .not => 0xA4
  | .xor => 0xE5
  | .jmp => 0x64
  | .jmr => 0x65
  | .inc => 0x68
  | .dec => 0x69
  | .add => 0xE8
  | .sub => 0xE9
  | .mul => 0xEA
  | .mod => 0xEB
  | .shl => 0xEC
  | .shr => 0xED
  | .min => 0xEE
  | .max => 0xEF
  | .rld => 0x98
  | .rsv => 0x99
  | .rlr => 0x9A
  | .rsr => 0x9B
  | .psh => 0x5C
  | .pop => 0x5D
  | .seg => 0xBF
  | .ado => 0xF8
  | .mlo => 0xFA

/-- The mnemonic of a kind, as written in assembly and in listings. -/
def mnemonic : Kind → String
  | .nop => "NOP"
  | .imm => "IMM"
  | .hlt => "HLT"
  | .cpy => "CPY"
  | .clr => "CLR"
  | .rst => "RST"
  | .clf => "CLF"
  | .cnf => "CNF"
  | .czf => "CZF"
  | .cof => "COF"
  | .jnf => "JNF"
  | .jnn => "JNN"
  | .jzf => "JZF"
  | .jnz => "JNZ"
  | .jof => "JOF"
  | .jno => "JNO"
  | .eq => "EQ"
  | .lt => "LT"
  | .lte => "LTE"
  | .neq => "NEQ"
  | .gte => "GTE"
  | .gt => "GT"
  | .nnd => "NND"
  | .or => "OR"
  | .and => "AND"
  | .nor => "NOR"
  | .not => "NOT"
  | .xor => "XOR"
  | .jmp => "JMP"
  | .jmr => "JMR"
  | .inc => "INC"
  | .dec => "DEC"
  | .add => "ADD"
  | .sub => "SUB"
  | .mul => "MUL"
  | .mod => "MOD"
  | .shl => "SHL"
  | .shr => "SHR"
  | .min => "MIN"
  | .max => "MAX"
  | .rld => "RLD"
  | .rsv => "RSV"
  | .rlr => "RLR"
  | .rsr => "RSR"
  | .psh => "PSH"
  | .pop => "POP"
  | .seg => "SEG"
  | .ado => "ADO"
  | .mlo => "MLO"

/-- What the operand bytes of a kind stand for, in order. -/
def operandKinds : Kind → List OperandKind
  | .nop => []
  | .imm => [.immediate, .register]
  | .hlt => []
  | .cpy => [.register, .register]
  | .clr => [.register]
  | .rst => []
  | .clf => []
  | .cnf => []
  | .czf => []
  | .cof => []
  | .jnf => [.romAddress]
  | .jnn => [.romAddress]
  | .jzf => [.romAddress]
  | .jnz => [.romAddress]
  | .jof => [.romAddress]
  | .jno => [.romAddress]
  | .eq => [.register, .register, .romAddress]
  | .lt => [.register, .register, .romAddress]
  | .lte => [.register, .register, .romAddress]
  | .neq => [.register, .register, .romAddress]
  | .gte => [.register, .register, .romAddress]
  | .gt => [.register, .register, .romAddress]
  | .nnd => [.register, .register, .register]
  | .or => [.register, .register, .register]
  | .and => [.register, .register, .register]
  | .nor => [.register, .register, .register]
  | .not => [.register, .register]
  | .xor => [.register, .register, .register]
  | .jmp => [.romAddress]
  | .jmr => [.register]
  | .inc => [.register]
  | .dec => [.register]
  | .add => [.register, .register, .register]
  | .sub => [.register, .register, .register]
  | .mul => [.register, .register, .register]
  | .mod => [.register, .register, .register]
  | .shl => [.register, .register, .register]
  | .shr => [.register, .register, .register]
  | .min => [.register, .register, .register]
  | .max => [.register, .register, .register]
  | .rld => [.ramAddress, .register]
  | .rsv => [.register, .ramAddress]
  | .rlr => [.register, .register]
  | .rsr => [.register, .register]
  | .psh => [.register]
  | .pop => [.register]
  | .seg => [.register, .register]
  | .ado => [.register, .register, .register]
  | .mlo => [.register, .register, .register]

def arity (k : Kind) : Nat :=
  k.operandKinds.length

/-- The number of bytes an instruction of this kind takes: the top two bits of
the opcode, plus one. -/
def width (k : Kind) : Nat :=
  ((k.opcode >>> 6) &&& 3).toNat + 1

/-- The widest instruction takes four bytes: the opcode and three operands. -/
def maxWidth : Nat := 4

/-- The width field of an opcode has two bits. -/
theorem width_le_maxWidth (k : Kind) : k.width ≤ maxWidth := by
  have h : ((k.opcode >>> 6) &&& 3).toNat ≤ 3 := by
    rw [UInt8.toNat_and]
    exact Nat.and_le_right
  simp only [width, maxWidth]
  omega

/-- Heavy kinds raise the machine's busy line while they run. -/
def isHeavy : Kind → Bool
  | .psh | .pop | .seg => true
  | _ => false

def ofOpcode? (b : UInt8) : Option Kind :=
  all.find? (fun k => k.opcode == b)

/-- The kind with a given mnemonic, matched exactly, case included. -/
def ofMnemonic? (s : String) : Option Kind :=
  all.find? (fun k => k.mnemonic == s)

/-- Every kind is found again from its opcode: no two kinds share one. -/
@[simp] theorem ofOpcode?_opcode (k : Kind) : ofOpcode? k.opcode = some k := by
  cases k <;> rfl

/-- Every kind is found again from its mnemonic. -/
@[simp] theorem ofMnemonic?_mnemonic (k : Kind) : ofMnemonic? k.mnemonic = some k := by
  cases k <;> rfl

/-- Every instruction is one opcode byte followed by its operands. -/
theorem width_eq_succ_arity (k : Kind) : k.width = k.arity + 1 := by
  cases k <;> decide

end Kind

end ByteMachine
