import ByteMachine.Assembly.Assembler
import ByteMachine.Machine.Flags
import ByteMachine.Machine.Memory
import ByteMachine.Machine.RegisterFile

/-!
# Machine state

The machine holds a 256-byte ROM with the program, a 256-byte RAM, the register
file, the flags and the program counter. It also records whether it has halted,
whether a heavy instruction is under way (never the case between steps), and
the last instruction it carried out.

Loading a program replaces the ROM, padding it with zeros, and leaves all else
alone. Resetting clears the registers and flags, moves the counter to zero and
forgets the halt and the last instruction, but keeps RAM and ROM.
-/

namespace ByteMachine

def romSize : Nat := 256

def ramSize : Nat := 256

/-- The number of RAM cells the stack cycles through. -/
def stackSize : Nat := 16

/-- Why a program could not be loaded. -/
inductive LoadError where
  | romTooLarge (length : Nat)
  | assembly (e : AssemblyError)
  deriving DecidableEq, Repr

namespace LoadError

def message : LoadError → String
  | romTooLarge n => "Program of " ++ toString n ++ " bytes doesn't fit into ROM (max size 256)"
  | assembly e => e.message

end LoadError

/-- The state of the machine: the program in ROM, the working memory, the registers,
the flags, the position of the next instruction, whether a halt was carried out,
whether a heavy instruction is under way, and the last instruction carried out. -/
structure Machine where
  rom : Vector UInt8 256
  ram : Memory
  regs : RegisterFile
  flags : Flags
  pc : Nat
  halted : Bool
  busy : Bool
  current : Option Instruction

namespace Machine

/-- A machine with zero ROM, RAM and registers, at counter zero. -/
def new : Machine where
  rom := Vector.replicate 256 0
  ram := Memory.zeros ramSize (by decide)
  regs := RegisterFile.zero
  flags := Flags.empty
  pc := 0
  halted := false
  busy := false
  current := none

def reg (m : Machine) (r : Register) : UInt8 :=
  m.regs.get r

def setReg (m : Machine) (r : Register) (v : UInt8) : Machine :=
  { m with regs := m.regs.set r v }

/-- The ROM image of a program of at most 256 bytes, padded with zeros. -/
def romImage (program : List UInt8) : Vector UInt8 256 :=
  Vector.ofFn fun i => program[i.val]?.getD 0

/-- Loads a program into ROM; a program longer than ROM changes nothing. -/
def load (m : Machine) (program : List UInt8) : Machine × Except LoadError Unit :=
  if program.length ≤ romSize then ({ m with rom := romImage program }, .ok ())
  else (m, .error (.romTooLarge program.length))

/-- Assembles a source text and loads it into ROM. -/
def loadSource (m : Machine) (source : String) : Machine × Except LoadError Assembled :=
  match assemble source with
  | .error e => (m, .error (.assembly e))
  | .ok a =>
    match m.load a.code with
    | (m', .error e) => (m', .error e)
    | (m', .ok ()) => (m', .ok a)

/-- A fresh machine with a program in ROM. -/
def withProgram (program : List UInt8) : Except LoadError Machine :=
  match new.load program with
  | (m, .ok ()) => .ok m
  | (_, .error e) => .error e

/-- Clears the registers, the flags and the busy line. -/
def resetState (m : Machine) : Machine :=
  { m with regs := m.regs.clear, flags := Flags.empty, busy := false }

/-- Resets the machine: counter zero, not halted, no last instruction, registers
and flags cleared. RAM and ROM stay. -/
def reset (m : Machine) : Machine :=
  { m.resetState with pc := 0, halted := false, current := none }

/-- Feeds a value to the input register, which keeps it modulo 256. -/
def input (m : Machine) (v : Nat) : Machine :=
  m.setReg Register.input v.toUInt8

/-- The machine's status as its console prints it: the counter, the general
registers and the input register. -/
def text (m : Machine) : String :=
  let general := (m.regs.toList.take generalCount).map fun v => "0x" ++ Text.hexByte v
  let inpt := (m.reg Register.input).toNat
  "PROGRAM COUNTER: 0x" ++ Text.hex 1 m.pc ++ "\nREGISTERS: [" ++ ", ".intercalate general ++
    "]\nINPUT: 0x" ++ Text.hex 1 inpt ++ " (" ++ toString inpt ++ ")"

end Machine

end ByteMachine
