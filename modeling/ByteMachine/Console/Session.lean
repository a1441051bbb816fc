import ByteMachine.Listing
import ByteMachine.Machine.Execute
import ByteMachine.Text.Unicode
import ByteMachine.Console.Workspace

/-!
# The emulator's console

After loading a program, the emulator reads commands, one per line. Before
each command it prints the machine's status and the prompt `> `. A command is
a word followed by arguments, all separated by blanks; extra arguments are
ignored and an empty line does nothing.

* `s [n]` steps `n` times (default 1), printing each instruction carried out,
  and stops after a halt, printing `Halted`;
* `r [limit]` runs until the machine halts or `limit` steps (default 10000)
  have been taken, and prints how many were taken;
* `i <value>` feeds the input register;
* `reset` resets the machine;
* `regs` prints every register and the flags;
* `ram [start] [length]` prints a block of RAM (by default sixteen bytes, or
  up to the end of RAM);
* `poke <start> [bytes…]` writes bytes into RAM;
* `l` prints the listing of the ROM, with the program's labels;
* `q` quits.

A failing command prints `!> ` and the reason to the error stream; whatever
it did before failing stays done.

The input is read as bytes, one line at a time. A line ends at a line feed,
which is dropped together with a carriage return just before it; the last line
may lack a line feed and is then taken whole. A line that is not UTF-8 ends the
emulator with an error.
-/

namespace ByteMachine.Console

/-- The text of a fatal error, with its cause when there is one. -/
def fatal (message : String) (cause : Option String) : String :=
  "Error: " ++ message ++ (match cause with
    | some c => "\n\nCaused by:\n    " ++ c
    | none => "") ++ "\n"

/-- Why a console command could not be carried out. Arguments are counted from the
command word, which is position 1. -/
inductive CommandError where
  | unknownCommand (word : String)
  | missingArgument (position : Nat)
  | badArgument (position : Nat) (reason : String)
  | fault (f : Fault)
  deriving DecidableEq, Repr

namespace CommandError

def message : CommandError → String
  | unknownCommand w => "Unknown command " ++ w
  | missingArgument n => "Missing argument " ++ toString n
  | badArgument n reason => "Bad argument " ++ toString n ++ " (" ++ reason ++ ")"
  | fault f => f.message

end CommandError

/-- What a command printed, and whether the console should close. -/
structure Reply where
  out : String := ""
  err : String := ""
  quit : Bool := false
  deriving DecidableEq, Repr

namespace Session

/-- The number of steps `r` takes at most when given no limit. -/
def defaultRunLimit : Nat := 10000

/-- The number of bytes `ram` prints when given no length. -/
def defaultDumpWidth : Nat := 16

/-- The argument at `position` (the command word is position 1) read as a
number no larger than `bound`, or `none` when there are fewer arguments. -/
def argument (words : List String) (position bound : Nat) : Except CommandError (Option Nat) :=
  match words[position - 1]? with
  | none => .ok none
  | some w =>
    match Numeral.readNat bound w with
    | .ok n => .ok (some n)
    | .error e => .error (.badArgument position e.message)

/-- The argument at `position`, which must be there. -/
def required (words : List String) (position bound : Nat) : Except CommandError Nat := do
  match ← argument words position bound with
  | some n => return n
  | none => throw (.missingArgument position)

/-- The arguments from `position` on, each a number no larger than `bound`. -/
def rest (words : List String) (position bound : Nat) : Except CommandError (List Nat) :=
  ((words.drop (position - 1)).zipIdx position).mapM fun (w, i) =>
    match Numeral.readNat bound w with
    | .ok n => .ok n
    | .error e => .error (.badArgument i e.message)

/-- Steps at most `count` times, printing each instruction carried out and
stopping after a halt. Returns the machine, the text printed, and the fault
that stopped the steps, if any. -/
def stepPrinting : Nat → Machine → String → Machine × String × Option Fault
  | 0, m, out => (m, out, none)
  | count + 1, m, out =>
    match m.step with
    | (m', .error e) => (m', out, some e)
    | (m', .ok r) =>
      let out := out ++ (match m'.current with
        | some i => i.text ++ "\n"
        | none => "")
      if r = .halted then (m', out ++ "Halted\n", none) else stepPrinting count m' out

/-- The `regs` report: each register right-aligned to five places with its value,
then the flags. -/
def registerReport (m : Machine) : String :=
  String.join (Register.all.map fun r =>
    let name := r.text
    let v := m.reg r
    String.ofList (List.replicate (5 - name.length) ' ') ++ name ++ ": 0x" ++ Text.hexByte v ++
      " (" ++ toString v.toNat ++ ")\n") ++
  "FLAGS: " ++ m.flags.text ++ "\n"

def failed (e : CommandError) : Reply :=
  { err := "!> " ++ e.message ++ "\n" }

/-- Carries out a command that needs no more than its arguments. -/
def command (m : Machine) (labels : LabelTable) (name : String) (words : List String) :
    Except CommandError (Machine × Reply) := do
  match name with
  | "s" =>
    let count := (← argument words 2 Numeral.word64Max).getD 1
    let (m', out, e) := stepPrinting count m ""
    match e with
    | none => return (m', { out })
    | some f => return (m', { out, err := "!> " ++ f.message ++ "\n" })
  | "r" =>
    let limit := (← argument words 2 Numeral.word64Max).getD defaultRunLimit
    let (m', r) := m.run limit
    match r with
    | .error f => return (m', failed (.fault f))
    | .ok n =>
      let note := if m'.halted then ""
        else "Didn't halt by " ++ toString limit ++ " executed instructions\n"
      return (m', { out := "Executed " ++ toString n ++ " instructions\n" ++ note })
  | "i" => return (m.input (← required words 2 4294967295), {})
  | "reset" => return (m.reset, {})
  | "regs" => return (m, { out := registerReport m })
  | "ram" =>
    let start := (← argument words 2 Numeral.word64Max).getD 0
    let len := (← argument words 3 Numeral.word64Max).getD (min defaultDumpWidth (ramSize - start))
    match m.ram.read start len with
    | .error f => throw (.fault f)
    | .ok bytes =>
      return (m, { out := Text.hex 2 start ++ ": " ++ " ".intercalate (bytes.map Text.hexByte) ++ "\n" })
  | "poke" =>
    let start ← required words 2 Numeral.word64Max
    let data ← rest words 3 255
    match m.ram.write start (data.map Nat.toUInt8) with
    | (ram, .error f) => return ({ m with ram }, failed (.fault f))
    | (ram, .ok ()) => return ({ m with ram }, {})
  | "l" => return (m, { out := Listing.text (Listing.trim m.rom.toList).toArray labels })
  | "q" => return (m, { quit := true })
  | _ => throw (.unknownCommand name)

/-- Carries out one line of console input. -/
def respond (m : Machine) (labels : LabelTable) (line : String) : Machine × Reply :=
  match Text.words line with
  | [] => (m, {})
  | name :: args =>
    match command m labels name (name :: args) with
    | .ok r => r
    | .error e => (m, failed e)

/-- The lines of console input, each as text or as the failure to read it: the
bytes cut at line feeds, a carriage return before a line feed dropped, and no
empty line after a final line feed. -/
def inputLines (input : List UInt8) : List (Except IoError String) :=
  let pieces := input.splitOn 10
  let ended := pieces.dropLast.map fun l => if l.getLast? = some 13 then l.dropLast else l
  let last := match pieces.getLast? with
    | some [] => []
    | some l => [l]
    | none => []
  (ended ++ last).map fun l =>
    match String.fromUTF8? (ByteArray.mk l.toArray) with
    | some text => .ok text
    | none => .error .invalidText

/-- The fatal error text for input that cannot be read. -/
def unreadable (e : IoError) : String :=
  fatal ("Couldn't read command from stdin: " ++ e.message) none

/-- What the console leaves: its output text, its error text and the exit status. -/
structure Ending where
  out : String
  err : String
  status : UInt32
  deriving DecidableEq, Repr

/-- Runs the console over the given lines after the text `out` and `err`
printed so far: before each line the status and the prompt are printed. The
console ends at the end of the lines, at `q`, or with status 1 at a line that
cannot be read. -/
def transcriptFrom (labels : LabelTable) (out err : String) :
    Machine → List (Except IoError String) → Ending
  | m, [] => ⟨out ++ m.text ++ "\n> ", err, 0⟩
  | m, .error e :: _ => ⟨out ++ m.text ++ "\n> ", err ++ unreadable e, 1⟩
  | m, .ok line :: more =>
    let out := out ++ m.text ++ "\n> "
    let (m', reply) := respond m labels line
    if reply.quit then ⟨out ++ reply.out, err ++ reply.err, 0⟩
    else transcriptFrom labels (out ++ reply.out) (err ++ reply.err) m' more

/-- Runs the console over the given lines. -/
def transcript (labels : LabelTable) (m : Machine) (lines : List (Except IoError String)) : Ending :=
  transcriptFrom labels "" "" m lines

end Session

end ByteMachine.Console
