import ByteMachine.Console.Programs

/-!
# The command line

`bytemachine emulator ARGS…` and `bytemachine deassembler ARGS…` run the two
programs on the operating system. Everything they do is in
`ByteMachine.Console`; this module only connects the `Host` operations to real
files and streams, and reads console lines as they come.
-/

namespace ByteMachine.Console

/-- The error number of a system error code, which some calls report negated. -/
def errorNumber (code : UInt32) : Nat :=
  if code.toNat < Nat.pow 2 31 then code.toNat else Nat.pow 2 32 - code.toNat

/-- The system error code an error carries, if any. -/
def osCode? : IO.Error → Option UInt32
  | .alreadyExists _ code _ => some code
  | .otherError code _ => some code
  | .resourceBusy code _ => some code
  | .resourceVanished code _ => some code
  | .unsupportedOperation code _ => some code
  | .hardwareFault code _ => some code
  | .unsatisfiedConstraints code _ => some code
  | .illegalOperation code _ => some code
  | .protocolError code _ => some code
  | .timeExpired code _ => some code
  | .interrupted _ code _ => some code
  | .noFileOrDirectory _ code _ => some code
  | .invalidArgument _ code _ => some code
  | .permissionDenied _ code _ => some code
  | .resourceExhausted _ code _ => some code
  | .inappropriateType _ code _ => some code
  | .noSuchThing _ code _ => some code
  | _ => none

/-- The error of a failed file operation, in the terms the programs print. -/
def ioErrorOf (e : IO.Error) : IoError :=
  match (osCode? e).bind fun code => IoError.ofCode (errorNumber code) with
  | some known => known
  | none => .other (toString e)

instance : Host IO where
  readFile p := do
    try
      let bytes ← IO.FS.readBinFile p
      return .ok bytes.toList
    catch e => return .error (ioErrorOf e)
  readText p := do
    try
      let bytes ← IO.FS.readBinFile p
      return decodeText bytes.toList
    catch e => return .error (ioErrorOf e)
  writeFile p bytes := do
    try
      IO.FS.writeBinFile p (ByteArray.mk bytes.toArray)
      return .ok ()
    catch e => return .error (ioErrorOf e)
  out s := do
    let stdout ← IO.getStdout
    stdout.putStr s
    stdout.flush
  err s := do
    let stderr ← IO.getStderr
    stderr.putStr s
    stderr.flush

/-- The console on standard input, one line at a time, until the input ends or
`q` is given. -/
partial def consoleLoop (stdin : IO.FS.Stream) (m : Machine) (labels : LabelTable) : IO UInt32 := do
  Host.out (m.text ++ "\n> ")
  let raw ← stdin.getLine
  match Session.inputLines raw.toUTF8.toList with
  | [] => return 0
  | .error e :: _ => Host.err (Session.unreadable e); return 1
  | .ok line :: _ =>
    let (m', reply) := Session.respond m labels line
    Host.out reply.out
    Host.err reply.err
    if reply.quit then return 0 else consoleLoop stdin m' labels

/-- Runs the emulator on the operating system. -/
def emulatorMain (args : List String) : IO UInt32 := do
  match ← (launch args : IO Launch) with
  | .exit status => return status
  | .console m labels => consoleLoop (← IO.getStdin) m labels

end ByteMachine.Console

/-- Runs `emulator` or `deassembler` with the remaining arguments. -/
def main (args : List String) : IO UInt32 :=
  match args with
  | "emulator" :: rest => ByteMachine.Console.emulatorMain rest
  | "deassembler" :: rest => ByteMachine.Console.deassembler rest
  | _ => do
    IO.eprintln "usage: bytemachine (emulator | deassembler) ARGS..."
    return 2
