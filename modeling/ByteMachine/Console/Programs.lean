import ByteMachine.Console.Host
import ByteMachine.Console.Options
import ByteMachine.Console.Session

/-!
# The command-line programs

`emulator` loads a program (assembly, or a raw ROM image with `--binary`),
writes the ROM image if asked, sets the input register if asked, and then either
runs a number of steps and prints the machine's status, or opens the console.
A failure to load, write or run ends it with status 1 and a message on the
error stream; a wrong command line ends it with status 2.

`deassembler` joins its arguments into one path, reads the ROM image there and
prints its trimmed listing.
-/

namespace ByteMachine.Console

/-- How the emulator goes on after loading: it ends with an exit status, or opens
the console on the loaded machine with its labels. -/
inductive Launch where
  | exit (status : UInt32)
  | console (m : Machine) (labels : LabelTable)

section

variable {m : Type → Type} [Monad m] [Host m]

/-- Reads and loads the program file, or gives the fatal error text. -/
def loadProgram (s : Settings) : m (Except String (Machine × LabelTable)) := do
  if s.binary then
    match ← Host.readFile s.program with
    | .error e => return .error (fatal ("Failed to read ROM image " ++ s.program) (some e.message))
    | .ok bytes =>
      match Machine.new.load bytes with
      | (_, .error e) => return .error (fatal e.message none)
      | (machine, .ok ()) => return .ok (machine, LabelTable.empty)
  else
    match ← Host.readText s.program with
    | .error e => return .error (fatal ("Failed to read program " ++ s.program) (some e.message))
    | .ok text =>
      match Machine.new.loadSource text with
      | (_, .error e) => return .error (fatal e.message none)
      | (machine, .ok a) => return .ok (machine, a.labels)

/-- Writes the ROM image when asked to, or gives the fatal error text. -/
def dumpRom (s : Settings) (machine : Machine) : m (Except String Unit) := do
  match s.dumpRom with
  | none => return .ok ()
  | some path =>
    match ← Host.writeFile path machine.rom.toList with
    | .ok () => return .ok ()
    | .error e => return .error (fatal ("Failed to write ROM image " ++ path) (some e.message))

/-- Everything the emulator does before its console opens. -/
def launch (args : List String) : m Launch := do
  match Options.parse args with
  | .error .help => Host.out Options.helpText; return .exit 0
  | .error .version => Host.out Options.versionText; return .exit 0
  | .error (.error text) => Host.err text; return .exit 2
  | .ok s =>
    match ← loadProgram s with
    | .error text => Host.err text; return .exit 1
    | .ok (machine, labels) =>
      match ← dumpRom s machine with
      | .error text => Host.err text; return .exit 1
      | .ok () =>
        let machine := match s.input with
          | some v => machine.input v
          | none => machine
        match s.steps with
        | none => return .console machine labels
        | some limit =>
          match machine.run limit with
          | (_, .error f) => Host.err (fatal f.message none); return .exit 1
          | (machine, .ok n) =>
            Host.out ("Executed " ++ toString n ++ " instructions\n" ++ machine.text ++ "\n")
            return .exit 0

/-- The deassembler: lists the trimmed ROM image at the path its arguments make. -/
def deassembler (args : List String) : m UInt32 := do
  let path := Path.ofParts args
  match Path.fileName? path with
  | none => Host.err "Specify the ROM dump path as arguments.\n"; return 1
  | some _ =>
    match ← Host.readFile path with
    | .error e => Host.err ("Error reading ROM dump: " ++ e.message ++ "\n"); return 1
    | .ok bytes =>
      Host.out (Listing.text (Listing.trim bytes).toArray LabelTable.empty)
      return 0

end

/-- What a program run left behind: its status, what it printed, and the files. -/
structure Transcript where
  status : UInt32
  out : String
  err : String
  files : Workspace

/-- Runs the emulator on a workspace, with `input` as its standard input. The
console reads what loading the program left of the input. -/
def runEmulator (args : List String) (files : Workspace) (input : List UInt8) : Transcript :=
  let (l, w) := (launch args : StateM World Launch).run { command := "emulator" :: args, files, input }
  match l with
  | .exit status => ⟨status, w.out, w.err, w.files⟩
  | .console machine labels =>
    let e := Session.transcript labels machine (Session.inputLines w.input)
    ⟨e.status, w.out ++ e.out, w.err ++ e.err, w.files⟩

/-- Runs the deassembler on a workspace, with `input` as its standard input. -/
def runDeassembler (args : List String) (files : Workspace) (input : List UInt8) : Transcript :=
  let (status, w) := (deassembler args : StateM World UInt32).run
    { command := "deassembler" :: args, files, input }
  ⟨status, w.out, w.err, w.files⟩

end ByteMachine.Console
