import ByteMachine.Console.FileTree
import ByteMachine.Text.Bytes

/-!
# Hosts

The command-line programs touch the world in a few ways only: they read a file
as bytes or as text, write a file, and print to the output and the error
streams. A `Host` monad provides these. The programs are written once, for any
host; running them on the operating system and running them on a model of it
(`World`) are the same code.

In the model, the standard input is a pipe that was filled and closed before
the program started. Reading it takes what is left of it, and writing to it
adds to what is left. Bytes written to the output or error stream join it, and
the stream is shown as text read lossily.
-/

namespace ByteMachine.Console

/-- What a command-line program needs from its surroundings: reading the file at a
path as bytes or as UTF-8 text, writing it (making or replacing it), and printing
to the output and the error streams. -/
class Host (m : Type → Type) where
  readFile : String → m (Except IoError (List UInt8))
  readText : String → m (Except IoError String)
  writeFile : String → List UInt8 → m (Except IoError Unit)
  out : String → m Unit
  err : String → m Unit

/-- The text of some bytes, which must be UTF-8. -/
def decodeText (bytes : List UInt8) : Except IoError String :=
  match String.fromUTF8? (ByteArray.mk bytes.toArray) with
  | some text => .ok text
  | none => .error .invalidText

/-- A model of the surroundings: the program's command line (its name, then its
arguments), the files, the standard input not read yet, and the text printed so
far to each stream. -/
structure World where
  command : List String := []
  files : Workspace
  input : List UInt8 := []
  out : String := ""
  err : String := ""

namespace World

/-- Reads a special file. The null device is empty, the standard input gives
what is left of it, and the command line and name come from `command`; the
terminal cannot be opened. Every other special file never ends, so reading all
of it runs out of memory. -/
def readSpecial (w : World) : Special → Except IoError (List UInt8) × World
  | .null => (.ok [], w)
  | .stdin => (.ok w.input, { w with input := [] })
  | .commandLine => (.ok (w.command.flatMap fun a => a.toUTF8.toList ++ [0]), w)
  | .commandName => (.ok ((w.command.headD "").toUTF8.toList.take 15 ++ [10]), w)
  | .tty => (.error .noDevice, w)
  | _ => (.error .outOfMemory, w)

/-- Writes `bytes` to a special file. The full device has no room, the terminal
cannot be opened and the command line cannot be written; the standard streams
take the bytes; the rest drop them. -/
def writeSpecial (w : World) (bytes : List UInt8) : Special → Except IoError Unit × World
  | .full => (.error .noSpace, w)
  | .tty => (.error .noDevice, w)
  | .commandLine => (.error .permissionDenied, w)
  | .stdin => (.ok (), { w with input := w.input ++ bytes })
  | .stdout => (.ok (), { w with out := w.out ++ Text.Utf8.lossy bytes })
  | .stderr => (.ok (), { w with err := w.err ++ Text.Utf8.lossy bytes })
  | _ => (.ok (), w)

def readFile (w : World) (p : String) : Except IoError (List UInt8) × World :=
  match w.files.source p with
  | .error e => (.error e, w)
  | .ok (.bytes bytes) => (.ok bytes, w)
  | .ok (.special s) => w.readSpecial s
  | .ok .hostText => (.error .unknownContents, w)
  | .ok .program => (.error .unknownContents, w)

/-- Reads the file at a path as text. A program's machine code is never text. -/
def readText (w : World) (p : String) : Except IoError String × World :=
  match w.files.source p with
  | .ok .program => (.error .invalidText, w)
  | _ =>
    let (r, w') := w.readFile p
    (r.bind decodeText, w')

def writeFile (w : World) (p : String) (bytes : List UInt8) : Except IoError Unit × World :=
  match w.files.sink p bytes with
  | .error e => (.error e, w)
  | .ok (.files files) => (.ok (), { w with files })
  | .ok (.special s) => w.writeSpecial bytes s

end World

instance : Host (StateM World) where
  readFile p := modifyGet fun w => w.readFile p
  readText p := modifyGet fun w => w.readText p
  writeFile p bytes := modifyGet fun w => w.writeFile p bytes
  out s := modify fun w => { w with out := w.out ++ s }
  err s := modify fun w => { w with err := w.err ++ s }

end ByteMachine.Console
