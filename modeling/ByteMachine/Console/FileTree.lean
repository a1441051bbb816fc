import ByteMachine.Console.Workspace

/-!
# The file tree around the workspace

A program sees one file tree: the workspace, below its working directory, and
the host's file system around it. Of the host only a part is known:

* the working directory is an entry of `/tmp` whose name no path can spell, so
  the only ways into it are the working directory itself and `/proc/self/cwd`;
* the root holds the usual top-level directories, with `/bin`, `/lib`,
  `/lib64` and `/sbin` linking into `/usr`;
* `/dev` holds the devices, with `/dev/fd` linking to `/proc/self/fd` and the
  standard streams linking to its entries;
* `/proc/self` describes the running program: its arguments, its name, its
  working directory, its root, its machine code and its open streams;
* a few host files and programs are known to exist, though not their contents.

Paths are looked up the way the operating system does. A path starting with
`/` starts at the root, and any other path at the working directory. Every
component before the last must be a directory: `.` and the empty component
(from a doubled or final `/`) stay, and `..` goes up, the root being its own
parent. A link is followed where it is met, so a later `..` leaves the place the
link leads to. A path of 4096 bytes or more, or a component of more than 255
bytes looked up in a directory, is too long.

Reading a directory, or writing to one, fails with "Is a directory". Passing
through something that is not a directory fails with "Not a directory", and a
missing component fails with "No such file or directory". Writing a path that
ends in `/` asks for a directory to be made, so once its parent directory is
found it fails as a directory. A new file is made only in the workspace; made
anywhere else it leaves no trace, and in `/proc` and `/sys` it cannot be made.
-/

namespace ByteMachine.Console

/-- The directory the working directory is in. -/
def workParent : List String := ["tmp"]

/-- The longest component, in bytes. -/
def nameMax : Nat := 255

/-- Every path is shorter than this many bytes. -/
def pathMax : Nat := 4096

namespace FileTree

def rootEntry? : String → Option Node
  | "bin" => some (.link (.host ["usr", "bin"]))
  | "lib" => some (.link (.host ["usr", "lib"]))
  | "lib64" => some (.link (.host ["usr", "lib64"]))
  | "sbin" => some (.link (.host ["usr", "sbin"]))
  | "boot" | "dev" | "etc" | "home" | "media" | "mnt" | "opt" | "proc" | "root" | "run"
  | "srv" | "sys" | "tmp" | "usr" | "var" => some .dir
  | _ => none

def usrEntry? : String → Option Node
  | "bin" | "lib" | "lib64" | "local" | "sbin" | "share" | "include" => some .dir
  | _ => none

/-- The programs of `/usr/bin` known to be there. -/
def binEntry? : String → Option Node
  | "sh" | "bash" | "env" | "cat" | "ls" => some .program
  | _ => none

/-- The files of `/etc` known to be there. -/
def etcEntry? : String → Option Node
  | "passwd" | "group" | "hosts" | "hostname" | "resolv.conf" | "os-release" => some .hostText
  | _ => none

def devEntry? : String → Option Node
  | "null" => some (.special .null)
  | "zero" => some (.special .zero)
  | "full" => some (.special .full)
  | "random" => some (.special .random)
  | "urandom" => some (.special .urandom)
  | "tty" => some (.special .tty)
  | "stdin" => some (.link (.host ["proc", "self", "fd", "0"]))
  | "stdout" => some (.link (.host ["proc", "self", "fd", "1"]))
  | "stderr" => some (.link (.host ["proc", "self", "fd", "2"]))
  | "fd" => some (.link (.host ["proc", "self", "fd"]))
  | "pts" | "shm" => some .dir
  | _ => none

/-- The entries of `/proc` known to be there. -/
def procEntry? : String → Option Node
  | "self" => some .dir
  | "cpuinfo" | "meminfo" | "version" | "uptime" | "loadavg" | "stat" | "filesystems" =>
    some .hostText
  | _ => none

def selfEntry? : String → Option Node
  | "cwd" => some (.link (.work []))
  | "root" => some (.link (.host []))
  | "exe" => some .program
  | "cmdline" => some (.special .commandLine)
  | "comm" => some (.special .commandName)
  | "fd" => some .dir
  | _ => none

/-- The entries of `/proc/self/fd`: the standard streams by number. -/
def streamEntry? : String → Option Node
  | "0" => some (.special .stdin)
  | "1" => some (.special .stdout)
  | "2" => some (.special .stderr)
  | _ => none

def sysEntry? : String → Option Node
  | "block" | "bus" | "class" | "dev" | "devices" | "firmware" | "fs" | "kernel" | "module"
  | "power" => some .dir
  | _ => none

/-- The known entry at a path below the root, outside the working directory. -/
def hostNode? : List String → Option Node
  | [] => some .dir
  | [name] => rootEntry? name
  | ["usr", name] => usrEntry? name
  | ["usr", "bin", name] => binEntry? name
  | ["etc", name] => etcEntry? name
  | ["dev", name] => devEntry? name
  | ["proc", name] => procEntry? name
  | ["proc", "self", name] => selfEntry? name
  | ["proc", "self", "fd", name] => streamEntry? name
  | ["sys", name] => sysEntry? name
  | _ => none

/-- What making a new file in the host directory at `comps` meets: `/proc`
finds no such entry, `/sys` does not allow it, and elsewhere nothing stops it. -/
def hostCreate (comps : List String) : Except IoError Unit :=
  match comps with
  | "proc" :: _ => .error .notFound
  | "sys" :: _ => .error .permissionDenied
  | _ => .ok ()

end FileTree

namespace Place

/-- The place an entry `name` of this directory is at. -/
def down : Place → String → Place
  | work comps, name => work (comps ++ [name])
  | host comps, name => host (comps ++ [name])

/-- The parent of this directory; the root is its own parent. -/
def up : Place → Place
  | work [] => host workParent
  | work comps => work comps.dropLast
  | host comps => host comps.dropLast

end Place

namespace Workspace

/-- The entry at a place, when it is known. -/
def nodeAt? (w : Workspace) : Place → Option Node
  | .work comps => w.node? comps
  | .host comps => FileTree.hostNode? comps

/-- The place a lookup stands at after meeting `p`: where the link leads when
`p` is a link, and `p` itself otherwise. Every link leads to a place that is not
a link. -/
def follow (w : Workspace) (p : Place) : Place :=
  match w.nodeAt? p with
  | some (.link target) => target
  | _ => p

/-- One step of a lookup: from the directory at `cur`, by component `c`. -/
def step (w : Workspace) (cur : Place) (c : String) : Except IoError Place :=
  match w.nodeAt? cur with
  | none => .error .notFound
  | some .dir =>
    if c = "" ∨ c = "." then .ok cur
    else if c = ".." then .ok cur.up
    else if nameMax < c.utf8ByteSize then .error .nameTooLong
    else .ok (w.follow (cur.down c))
  | some _ => .error .notADirectory

/-- Walks the components from `cur`, each step starting from a directory. -/
def walk (w : Workspace) (cur : Place) : List String → Except IoError Place
  | [] => .ok cur
  | c :: cs => do walk w (← w.step cur c) cs

/-- Where the lookup of a path starts, and the components it takes. -/
def origin (p : String) : Place × List String :=
  if p.startsWith "/" then (.host [], p.splitOn "/") else (.work [], p.splitOn "/")

/-- The checks a path passes before its lookup: it is neither empty nor too long. -/
def checkPath (p : String) : Except IoError Unit :=
  if p.isEmpty then .error .notFound
  else if pathMax ≤ p.utf8ByteSize then .error .nameTooLong
  else .ok ()

/-- What reading a path meets. -/
inductive Source where
  | bytes (b : List UInt8)
  | special (s : Special)
  | hostText
  | program
  deriving DecidableEq, Repr

def source (w : Workspace) (p : String) : Except IoError Source := do
  checkPath p
  let (start, comps) := origin p
  let place ← w.walk start comps
  match w.nodeAt? place with
  | some (.file bytes) => return .bytes bytes
  | some (.special s) => return .special s
  | some .hostText => return .hostText
  | some .program => return .program
  | some .dir => throw .isADirectory
  | some (.link _) => throw .notFound
  | none => throw .notFound

/-- The components of a path without the empty ones a final `/` leaves. -/
def dropTrailing (parts : List String) : List String :=
  (parts.reverse.dropWhile (· = "")).reverse

/-- What writing a path does: it changes the workspace, or hands the bytes to a
special file. -/
inductive Sink where
  | files (w : Workspace)
  | special (s : Special)
  deriving DecidableEq, Repr

/-- The workspace after making or replacing the file at `place`. -/
def create (w : Workspace) (place : Place) (bytes : List UInt8) : Except IoError Workspace :=
  match place with
  | .work comps => .ok (w.put comps (.file bytes))
  | .host comps => do FileTree.hostCreate comps.dropLast; return w

/-- What writing `bytes` to the file at a path does, making or replacing it. -/
def sink (w : Workspace) (p : String) (bytes : List UInt8) : Except IoError Sink := do
  checkPath p
  let (start, comps) := origin p
  let named := dropTrailing comps
  match named.getLast? with
  | none => throw .isADirectory
  | some last =>
    let dir ← w.walk start named.dropLast
    match w.nodeAt? dir with
    | none => throw .notFound
    | some .dir =>
      if p.endsWith "/" ∨ last = "." ∨ last = ".." then throw .isADirectory
      else if nameMax < last.utf8ByteSize then throw .nameTooLong
      else
        let target := w.follow (dir.down last)
        match w.nodeAt? target with
        | some .dir => throw .isADirectory
        | some (.special s) => return .special s
        | some .hostText => throw .permissionDenied
        | some .program => throw .permissionDenied
        | _ => return .files (← w.create target bytes)
    | some _ => throw .notADirectory

end Workspace

end ByteMachine.Console
