/-!
# Workspaces

A workspace is the part of a file system a program runs in: a tree of
directories and files below its working directory, given in full. Around it
lies the rest of the host's file system, of which only a part is known (see
`ByteMachine.Console.FileTree`). This module holds what both are made of:
where a lookup can stand (`Place`), what it can find there (`Node`), the errors
file operations report, and the workspace itself, and how paths into it are
written and joined.
-/

namespace ByteMachine.Console

/-- Why a file could not be read or written. Each error has the text the system
gives it; `unknownContents` is met reading a host file whose contents are not
known here. -/
inductive IoError where
  | notFound
  | noDevice
  | outOfMemory
  | permissionDenied
  | notADirectory
  | isADirectory
  | noSpace
  | nameTooLong
  | invalidText
  | unknownContents
  | other (text : String)
  deriving DecidableEq, Repr

namespace IoError

def message : IoError → String
  | notFound => "No such file or directory (os error 2)"
  | noDevice => "No such device or address (os error 6)"
  | outOfMemory => "Cannot allocate memory (os error 12)"
  | permissionDenied => "Permission denied (os error 13)"
  | notADirectory => "Not a directory (os error 20)"
  | isADirectory => "Is a directory (os error 21)"
  | noSpace => "No space left on device (os error 28)"
  | nameTooLong => "File name too long (os error 36)"
  | invalidText => "stream did not contain valid UTF-8"
  | unknownContents => "contents not known"
  | other text => text

/-- The error with a given system error number, when it is one of the above. -/
def ofCode : Nat → Option IoError
  | 2 => some notFound
  | 6 => some noDevice
  | 12 => some outOfMemory
  | 13 => some permissionDenied
  | 20 => some notADirectory
  | 21 => some isADirectory
  | 28 => some noSpace
  | 36 => some nameTooLong
  | _ => none

end IoError

/-- Files whose contents the system makes as they are read, or that pass on what
is written to them. `null` reads as empty; `zero` and `full` give endless zero
bytes, and `full` refuses every write for want of space; `random` and `urandom`
give endless random bytes; a program run without a terminal cannot open `tty`;
`commandLine` holds the program's arguments, its own name first, each ended by a
zero byte, and `commandName` its name and a line feed. Every other write is taken. -/
inductive Special where
  | null
  | zero
  | full
  | random
  | urandom
  | tty
  | stdin
  | stdout
  | stderr
  | commandLine
  | commandName
  deriving DecidableEq, Repr

/-- Where a lookup stands: at a path below the working directory, or at a path
below the root outside it. -/
inductive Place where
  | work (comps : List String)
  | host (comps : List String)
  deriving DecidableEq, Repr

/-- An entry of a file system. A symbolic link names the place it leads to. The
contents of the host's own text files and programs are not known; a program's
bytes are never UTF-8 text. -/
inductive Node where
  | file (bytes : List UInt8)
  | dir
  | special (s : Special)
  | link (target : Place)
  | hostText
  | program
  deriving DecidableEq, Repr

/-- Files and directories, each by its components below the working directory, in
the order they were made. The working directory itself is the empty path and is
not listed. -/
structure Workspace where
  entries : List (List String × Node)
  deriving DecidableEq, Repr

namespace Workspace

def empty : Workspace := ⟨[]⟩

/-- The entry at a path below the working directory, which is a directory. -/
def node? (w : Workspace) (comps : List String) : Option Node :=
  if comps.isEmpty then some .dir else w.entries.lookup comps

/-- The workspace with `node` at `comps`, replacing what was there. -/
def put (w : Workspace) (comps : List String) (node : Node) : Workspace :=
  if w.entries.any (fun e => e.1 == comps) then
    ⟨w.entries.map fun e => if e.1 == comps then (comps, node) else e⟩
  else ⟨w.entries ++ [(comps, node)]⟩

/-- The workspace with a directory at `comps` and at each of its parents. -/
def makeDirs (w : Workspace) (comps : List String) : Workspace :=
  (List.range comps.length).foldl (fun acc k =>
    let front := comps.take (k + 1)
    match acc.node? front with
    | some _ => acc
    | none => acc.put front .dir) w

/-- The workspace with a file at `comps`, making its parent directories. -/
def addFile (w : Workspace) (comps : List String) (bytes : List UInt8) : Workspace :=
  (w.makeDirs comps.dropLast).put comps (.file bytes)

/-- The components of a relative path, without empty and `.` components. -/
def split (p : String) : List String :=
  (p.splitOn "/").filter fun c => c ≠ "" ∧ c ≠ "."

/-- The files of `after` that are new or changed since `before`, with their bytes. -/
def changedFiles (before after : Workspace) : List (List String × List UInt8) :=
  after.entries.filterMap fun e =>
    match e.2 with
    | .file bytes => if before.node? e.1 = some (.file bytes) then none else some (e.1, bytes)
    | _ => none

end Workspace

end ByteMachine.Console

/-!
## Paths

A path is text: components separated by `/`, absolute when it starts with
`/`. Joining a path onto another appends it after a separator, unless it is
absolute, in which case it replaces the other. A path's *file name* is its last
component when that is an ordinary name; it has none when it is empty, is the
root, or ends in `..`. Components `.` other than a leading one, and empty
components, do not count.
-/

namespace ByteMachine.Console.Path

/-- Appends `p` to `base`: an absolute `p` replaces `base`; otherwise a separator
is put between them when `base` is not empty and does not end in one. -/
def push (base p : String) : String :=
  if p.startsWith "/" then p
  else if base.isEmpty || base.endsWith "/" then base ++ p
  else base ++ "/" ++ p

/-- The path made of the given parts, joined in order. -/
def ofParts (parts : List String) : String :=
  parts.foldl push ""

/-- The components that count for the file name. -/
def namedComponents (p : String) : List String :=
  (p.splitOn "/").filter fun c => c ≠ "" ∧ c ≠ "."

/-- The last component of a path, when it is an ordinary name. -/
def fileName? (p : String) : Option String :=
  match (namedComponents p).getLast? with
  | some ".." => none
  | some c => some c
  | none => none

end ByteMachine.Console.Path
