import ByteMachine.Machine.Alu
import ByteMachine.Machine.State

/-!
# Execution

`execute` carries out one operation on the machine. It does not move the
counter for straight-line operations; a jump that is taken sets it, and a jump
to a target outside ROM is a fault. `step` decodes the instruction at the
counter, carries out its operation and then moves the counter past it, unless
the operation jumped. A halted machine does not step. `run` steps until the
machine halts, the counter leaves ROM, or the step limit is reached.

Every operation returns the machine as it leaves it together with how it
ended, also when it fails, since the machine is changed in place.

The stack lives in the first sixteen cells of RAM. `STCK` points at the next
free cell: a push stores there and moves the pointer up by one, a pop moves
it down by one and loads from there, both modulo sixteen.
-/

/-!
## Seven-segment patterns

The seven-segment instruction turns a byte into the pattern of lit segments
that shows it: bit 0 is the top segment, then clockwise, bit 6 the middle one.
A digit is shown for both its value and its ASCII character; the hexadecimal
letters for their value and both ASCII cases; `-` and `_` have their own
patterns and `X`/`x` blank the display. Rows are tried in order and the first
one that lists the byte wins; bytes in no row have no pattern.
-/

namespace ByteMachine.SevenSegment

/-- The rows of the table: the bytes a row shows, and its pattern. -/
def table : List (List UInt8 × UInt8) :=
  [([0, 48], 0x3F), ([1, 49], 0x06), ([2, 50], 0x5B), ([3, 51], 0x4F),
   ([4, 52], 0x66), ([5, 53], 0x6D), ([6, 53], 0x7D), ([7, 54], 0x07),
   ([8, 55], 0x7F), ([9, 56], 0x6F), ([10, 65, 97], 0x77), ([11, 66, 98], 0x7C),
   ([12, 67, 99], 0x39), ([13, 68, 100], 0x5E), ([14, 69, 101], 0x79),
   ([15, 70, 102], 0x71), ([45], 0x40), ([95], 0x08), ([88, 120], 0)]

/-- The pattern that shows `code`, if there is one. -/
def segments (code : UInt8) : Option UInt8 :=
  (table.find? fun row => row.1.contains code).map Prod.snd

end ByteMachine.SevenSegment

/-! ## Operations and steps -/

namespace ByteMachine

/-- How an operation ended: the counter should move past the instruction, the
operation set the counter, or the machine should halt. -/
inductive Outcome where
  | normal
  | jumped
  | halted
  deriving DecidableEq, Repr

namespace Machine

/-- Jumps to `target`, which must lie in ROM. -/
def jump (m : Machine) (target : Nat) : Machine × Except Fault Outcome :=
  if target < romSize then ({ m with pc := target }, .ok .jumped)
  else (m, .error (.romOutOfBounds target))

/-- Continues with the counter moving on. -/
def next (m : Machine) : Machine × Except Fault Outcome :=
  (m, .ok .normal)

/-- Writes an arithmetic result and the new flags. -/
def writeAlu (m : Machine) (dst : Register) (r : UInt8 × Flags) : Machine :=
  { m with flags := r.2 }.setReg dst r.1

/-- Carries out one operation. -/
def execute (m : Machine) : Operation → Machine × Except Fault Outcome
  | .nop => m.next
  | .halt => (m, .ok .halted)
  | .resetState => m.resetState.next
  | .clearFlags none => { m with flags := Flags.empty }.next
  | .clearFlags (some f) => { m with flags := m.flags.set f false }.next
  | .immediate v dst => (m.setReg dst v).next
  | .copy src dst => (m.setReg dst (m.reg src)).next
  | .clear r => (m.setReg r 0).next
  | .jump target => m.jump target
  | .jumpRegister r => m.jump ((m.reg r).toNat % romSize)
  | .jumpIfFlag f s target => if m.flags.get f = s then m.jump target else m.next
  | .jumpIfCompare cmp a b target =>
    if cmp.holds (m.reg a) (m.reg b) then m.jump target else m.next
  | .alu op a b dst =>
    let (out, fl) := Alu.compute op (m.reg a) (m.reg b) m.flags
    let m := { m with flags := fl }
    match out with
    | none => (m, .error .divisionByZero)
    | some out =>
      let m' := m.setReg dst out.value
      match out.carried with
      | some c => (m'.setReg Register.overflow c).next
      | none => m'.next
  | .not src dst => (m.writeAlu dst (Alu.complement (m.reg src) m.flags)).next
  | .increment r => (m.writeAlu r (Alu.increment (m.reg r) m.flags)).next
  | .decrement r => (m.writeAlu r (Alu.decrement (m.reg r) m.flags)).next
  | .ramLoad pos dst => (m.setReg dst (m.ram.load pos.toNat)).next
  | .ramSave src pos => { m with ram := m.ram.save pos.toNat (m.reg src) }.next
  | .ramLoadIndirect src dst => (m.setReg dst (m.ram.load (m.reg src).toNat)).next
  | .ramSaveIndirect src dst =>
    { m with ram := m.ram.save (m.reg dst).toNat (m.reg src) }.next
  | .push src =>
    let p := (m.reg Register.stack).toNat
    let m' := { m with ram := m.ram.save p (m.reg src) }
    (m'.setReg Register.stack ((p + 1) % stackSize).toUInt8).next
  | .pop dst =>
    let p := ((m.reg Register.stack).toNat + stackSize - 1) % stackSize
    let m' := m.setReg Register.stack p.toUInt8
    (m'.setReg dst (m'.ram.load p)).next
  | .sevenSegment src dst =>
    match SevenSegment.segments (m.reg src) with
    | some mask => (m.setReg dst mask).next
    | none => m.next

/-- Moves the counter after an instruction of width `w` ended with `r`. -/
def finish (m : Machine) (w : Nat) : Outcome → Machine
  | .normal => { m with pc := m.pc + w }
  | .jumped => m
  | .halted => { m with halted := true, pc := m.pc + w }

/-- Decodes and carries out the instruction at the counter. The busy line is
raised for a heavy instruction while its operation runs and lowered after it,
whether or not the operation failed. -/
def step (m : Machine) : Machine × Except Fault Outcome :=
  if m.halted then (m, .ok .halted)
  else
    match Instruction.decodeAt m.rom.toArray m.pc with
    | .error e => (m, .error (Fault.ofDecode m.pc e))
    | .ok i =>
      match i.operation with
      | .error e => (m, .error (Fault.ofDecode m.pc e))
      | .ok op =>
        let (m', r) := { m with busy := i.kind.isHeavy }.execute op
        let m' := { m' with busy := false }
        match r with
        | .error e => (m', .error e)
        | .ok r => ({ m'.finish i.width r with current := some i }, .ok r)

/-- Whether `run` may take another step. -/
def canStep (m : Machine) : Bool :=
  !m.halted && m.pc < romSize

/-- Steps at most `limit` times, stopping early when the machine halts or its
counter leaves ROM; `count` steps have been taken so far. Returns the machine
reached, and the number of steps taken or the fault that stopped it. -/
def runFrom (count : Nat) : Nat → Machine → Machine × Except Fault Nat
  | 0, m => (m, .ok count)
  | limit + 1, m =>
    if m.canStep then
      match m.step with
      | (m', .error e) => (m', .error e)
      | (m', .ok _) => runFrom (count + 1) limit m'
    else (m, .ok count)

/-- Steps at most `limit` times, as `runFrom` from no steps. -/
def run (m : Machine) (limit : Nat) : Machine × Except Fault Nat :=
  runFrom 0 limit m

/-- Steps `count` times, stopping at the first fault. Returns the machine reached,
the outcomes of the steps taken, and the fault, if one stopped the steps. -/
def steps : Nat → Machine → Machine × List Outcome × Option Fault
  | 0, m => (m, [], none)
  | count + 1, m =>
    match m.step with
    | (m', .error e) => (m', [], some e)
    | (m', .ok r) =>
      let (m'', rs, e) := steps count m'
      (m'', r :: rs, e)

end Machine

end ByteMachine
