import ByteMachine.Numeral
import ByteMachine.Text.Similarity

/-!
# The emulator's command line

The emulator takes one program path and the options `-b` (`--binary`),
`-s` (`--steps <STEPS>`), `-i` (`--input <INPUT>`), `-d` (`--dump-rom <DUMP_ROM>`),
`-h` (`--help`) and `-V` (`--version`). Options are read left to right:

* a long option may carry its value after `=`; a short one right after the
  letter, with or without `=`; several short flags may share one dash;
* otherwise an option's value is the next argument, unless that argument looks
  like an option itself; after `--` every argument is a plain value;
* a value is checked only when the next option or value is met, or at the
  end, so an option waiting for a value fails when anything else comes first;
* each option may be given once; help and version end the reading at once.

Errors are reported with a usage line built from the options already seen.
The settings (the program and the options other than help and version) form
one group, which a value given to a flag reports as a whole once any setting
has been taken.
An unknown long option suggests the known one most similar to it, when one is
similar enough.
-/

namespace ByteMachine.Console

/-- The arguments of the emulator's command line. -/
inductive Arg where
  | program
  | binary
  | steps
  | input
  | dumpRom
  | help
  | version
  deriving DecidableEq, Repr

namespace Arg

def long? : Arg → Option String
  | program => none
  | binary => some "binary"
  | steps => some "steps"
  | input => some "input"
  | dumpRom => some "dump-rom"
  | help => some "help"
  | version => some "version"

def short? : Arg → Option Char
  | program => none
  | binary => some 'b'
  | steps => some 's'
  | input => some 'i'
  | dumpRom => some 'd'
  | help => some 'h'
  | version => some 'V'

def takesValue : Arg → Bool
  | program | steps | input | dumpRom => true
  | binary | help | version => false

/-- How the argument is named in messages. -/
def display : Arg → String
  | program => "<PROGRAM>"
  | binary => "--binary"
  | steps => "--steps <STEPS>"
  | input => "--input <INPUT>"
  | dumpRom => "--dump-rom <DUMP_ROM>"
  | help => "--help"
  | version => "--version"

/-- The options, in the order they are declared. -/
def options : List Arg := [binary, steps, input, dumpRom, help, version]

/-- The emulator's own settings, in the order they are declared: everything but
help and version. Together they form one group of arguments. -/
def settings : List Arg := [program, binary, steps, input, dumpRom]

def isSetting : Arg → Bool
  | help | version => false
  | _ => true

def ofLong? (s : String) : Option Arg :=
  options.find? fun a => a.long? == some s

def ofShort? (c : Char) : Option Arg :=
  options.find? fun a => a.short? == some c

end Arg

/-- What the emulator is asked to do: the program file, whether it is a ROM image
rather than assembly, how many steps to run before printing the state, the
initial input value, and where to write the ROM image. -/
structure Settings where
  program : String
  binary : Bool
  steps : Option Nat
  input : Option Nat
  dumpRom : Option String
  deriving DecidableEq, Repr

/-- The arguments read so far: those present, in the order they first appeared,
and the value of each. -/
structure Matches where
  present : List Arg := []
  program : Option String := none
  binary : Bool := false
  steps : Option Nat := none
  input : Option Nat := none
  dumpRom : Option String := none
  deriving DecidableEq, Repr

/-- Why reading the command line stopped early. -/
inductive Stop where
  | help
  | version
  | error (text : String)
  deriving DecidableEq, Repr

/-- The state of reading: what has been read, an argument whose values are not
checked yet, the option waiting for its value, whether `--` was seen, and how
many plain values were taken. -/
structure Reader where
  seen : Matches := {}
  pending : Option (Arg × List String) := none
  expecting : Option Arg := none
  escaped : Bool := false
  positionals : Nat := 0
  deriving DecidableEq, Repr

namespace Options

def helpText : String :=
  "Usage: emulator [OPTIONS] <PROGRAM>\n\nArguments:\n" ++
  "  <PROGRAM>  Assembly source, or a raw ROM image with \x60--binary\x60\n\nOptions:\n" ++
  "  -b, --binary               Load the program file as a raw ROM image instead of assembling it\n" ++
  "  -s, --steps <STEPS>        Run for at most this many steps, print the state and exit\n" ++
  "  -i, --input <INPUT>        Initial value of the input register, reduced mod 256\n" ++
  "  -d, --dump-rom <DUMP_ROM>  Write the loaded ROM image to this path\n" ++
  "  -h, --help                 Print help\n" ++
  "  -V, --version              Print version\n"

def versionText : String := "emulator 0.1.0\n"

/-- The usage line when nothing particular has been read. -/
def fullUsage : String := "emulator [OPTIONS] <PROGRAM>"

/-- The usage line naming the arguments read so far, then the program. -/
def usageWith (used : List Arg) : String :=
  let opts := (used.filter (· ≠ .program)).foldl (fun acc a => if acc.contains a then acc else acc ++ [a]) []
  "emulator" ++ String.join (opts.map fun a => " " ++ a.display) ++ " <PROGRAM>"

/-- The usage line naming the arguments read so far, or the full one when there
are none. -/
def usageOrFull (used : List Arg) : String :=
  if used.isEmpty then fullUsage else usageWith used

/-- The group of all settings as one alternative, the program by its bare name. -/
def settingsGroup : String :=
  "<" ++ "|".intercalate (Arg.settings.map fun a => if a = .program then "PROGRAM" else a.display) ++ ">"

/-- The usage line once a setting has been taken: the group of settings stands
for every setting, so only the other arguments are named before it. -/
def groupUsage (used : List Arg) : String :=
  "emulator" ++ String.join ((used.filter (!·.isSetting)).map fun a => " " ++ a.display) ++
    " " ++ settingsGroup

/-- An error text, with a usage line when one is given. -/
def errorText (body : String) (usage : Option String) : String :=
  "error: " ++ body ++ (match usage with
    | some u => "\n\nUsage: " ++ u
    | none => "") ++ "\n\nFor more information, try '--help'.\n"

/-- The error for an argument nobody expected. -/
def unknownArgument (arg : String) (similar : Option String) (asValueTip : Bool) (usage : String) : String :=
  let tips :=
    (match similar with
      | some s => "\n\n  tip: a similar argument exists: '" ++ s ++ "'"
      | none => "") ++
    (if asValueTip then
      (if similar.isNone then "\n" else "") ++ "\n  tip: to pass '" ++ arg ++ "' as a value, use '-- " ++ arg ++ "'"
    else "")
  errorText ("unexpected argument '" ++ arg ++ "' found" ++ tips) (some usage)

/-- The error for an option given without a value. -/
def emptyValue (a : Arg) : String :=
  errorText ("a value is required for '" ++ a.display ++ "' but none was supplied") none

/-- The error for a value that does not read. -/
def invalidValue (a : Arg) (raw reason : String) : String :=
  errorText ("invalid value '" ++ raw ++ "' for '" ++ a.display ++ "': " ++ reason) none

/-- The option most similar to a mistyped long name, if any is similar enough;
among equally similar ones the last declared wins. -/
def similarOption (name : String) : Option Arg :=
  let best := Arg.options.foldl (fun (acc : Option (Arg × Float)) a =>
    let score := Text.jaro name ((a.long?).getD "")
    if score > 0.7 then
      match acc with
      | some (_, s) => if score ≥ s then some (a, score) else acc
      | none => some (a, score)
    else acc) none
  best.map Prod.fst

/-- Records the value of an argument, checking it. -/
def record (m : Matches) (a : Arg) (raw : Option String) : Except String Matches :=
  let v := raw.getD ""
  match a with
  | .program => if v.isEmpty then .error (emptyValue a) else .ok { m with program := some v }
  | .dumpRom => if v.isEmpty then .error (emptyValue a) else .ok { m with dumpRom := some v }
  | .binary => .ok { m with binary := true }
  | .steps =>
    match Numeral.readNat Numeral.word64Max v with
    | .ok n => .ok { m with steps := some n }
    | .error e => .error (invalidValue a v e.message)
  | .input =>
    match Numeral.readInt64 v with
    | .error e => .error (invalidValue a v e.message)
    | .ok n =>
      if 0 ≤ n ∧ n ≤ 4294967295 then .ok { m with input := some n.toNat }
      else .error (invalidValue a v (toString n ++ " is not in 0..=4294967295"))
  | .help | .version => .ok m

/-- Takes an argument with its values, assuming no value is waiting. Returns the
new state, and the reason to stop if there is one; a failed value still counts
as given, while an argument given twice is dropped. -/
def take (r : Reader) (a : Arg) (values : List String) : Reader × Option Stop :=
  if a.takesValue ∧ values.isEmpty then (r, some (.error (emptyValue a)))
  else
    match a with
    | .help => (r, some .help)
    | .version => (r, some .version)
    | _ =>
      if r.seen.present.contains a then
        ({ r with seen := { r.seen with present := r.seen.present.erase a } },
          some (.error (errorText ("the argument '" ++ a.display ++ "' cannot be used multiple times")
            (some fullUsage))))
      else
        let m := { r.seen with present := r.seen.present ++ [a] }
        match record m a values.head? with
        | .ok m' => ({ r with seen := m' }, none)
        | .error text => ({ r with seen := m }, some (.error text))

/-- Checks the value that is waiting, if any. -/
def resolve (r : Reader) : Reader × Option Stop :=
  match r.pending with
  | none => (r, none)
  | some (a, vs) => take { r with pending := none } a vs

/-- Checks the waiting value, then takes an argument. -/
def react (r : Reader) (a : Arg) (values : List String) : Reader × Option Stop :=
  match resolve r with
  | (r', some s) => (r', some s)
  | (r', none) => take r' a values

/-- Continues with the state, or stops. -/
def proceed : Reader × Option Stop → Except Stop Reader
  | (_, some s) => .error s
  | (r, none) => .ok r

/-- An option that takes a value, with the value given alongside or not. -/
def optionValue (r : Reader) (a : Arg) (attached : Option String) : Except Stop Reader :=
  match attached with
  | some v => do
    let r ← proceed (react r a [v])
    return { r with expecting := none }
  | none => do
    let r ← proceed (resolve r)
    return { r with pending := some (a, []), expecting := some a }

/-- The error for an unknown long option. -/
def unknownLong (r : Reader) (name : String) : Stop :=
  let r := (resolve r).1
  let similar := similarOption name
  let used := match similar with
    | some a => if r.seen.present.contains a then r.seen.present else r.seen.present ++ [a]
    | none => r.seen.present
  .error (unknownArgument ("--" ++ name) (similar.map fun a => "--" ++ (a.long?).getD "")
    similar.isNone (usageOrFull used))

/-- Reads a long option `--name` or `--name=value`. -/
def longOption (r : Reader) (name : String) (value : Option String) : Except Stop Reader :=
  match Arg.ofLong? name with
  | none => .error (unknownLong r name)
  | some a =>
    if a.takesValue then optionValue r a value
    else
      match value with
      | some rest =>
        let usage := if r.seen.present.isEmpty then usageWith [a] else groupUsage [a]
        .error (.error (errorText ("unexpected value '" ++ rest ++ "' for '" ++ a.display ++
          "' found; no more were expected") (some usage)))
      | none => do
        let r ← proceed (react r a [])
        return { r with expecting := none }

/-- Reads a group of short options after one dash. -/
def shortOptions (r : Reader) : List Char → Except Stop Reader
  | [] => .ok { r with expecting := none }
  | c :: rest =>
    match Arg.ofShort? c with
    | none => .error (.error (unknownArgument ("-" ++ c.toString) none true fullUsage))
    | some a =>
      if a.takesValue then
        let value := match rest with
          | [] => none
          | '=' :: v => some (String.ofList v)
          | v => some (String.ofList v)
        optionValue r a value
      else do
        let r ← proceed (react r a [])
        shortOptions r rest

/-- Reads a plain value: the program path, or an argument too many. -/
def plainValue (r : Reader) (arg : String) : Except Stop Reader :=
  if r.positionals = 0 then do
    let r ← proceed (resolve r)
    return { r with pending := some (.program, [arg]), positionals := 1, expecting := none }
  else
    .error (.error (unknownArgument arg none false fullUsage))

/-- Splits the text after `--` into a name and the value after the first `=`. -/
def splitLong (body : List Char) : String × Option String :=
  match body.span (· ≠ '=') with
  | (name, []) => (String.ofList name, none)
  | (name, _ :: value) => (String.ofList name, some (String.ofList value))

def readArg (r : Reader) (arg : String) : Except Stop Reader :=
  if r.escaped then plainValue r arg
  else
    match arg.toList with
    | ['-', '-'] => .ok { r with escaped := true }
    | '-' :: '-' :: body =>
      let (name, value) := splitLong body
      longOption r name value
    | '-' :: c :: cs => shortOptions r (c :: cs)
    | _ =>
      match r.expecting with
      | some a => .ok { r with pending := some (a, [arg]), expecting := none }
      | none => plainValue r arg

/-- Reads all arguments, then checks the last waiting value and the program path. -/
def parse (args : List String) : Except Stop Settings := do
  let r ← args.foldlM readArg {}
  let r ← proceed (resolve r)
  match r.seen.program with
  | none =>
    throw (.error (errorText "the following required arguments were not provided:\n  <PROGRAM>"
      (some (usageWith r.seen.present))))
  | some p =>
    return { program := p, binary := r.seen.binary, steps := r.seen.steps,
             input := r.seen.input, dumpRom := r.seen.dumpRom }

end Options

end ByteMachine.Console
