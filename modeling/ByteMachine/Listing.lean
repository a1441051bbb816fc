import ByteMachine.Isa.Instruction

/-!
# Listings

A listing walks a code image from its start: it decodes the instruction at the
current offset and moves past it, or moves one byte on when the byte does not
decode. Every byte of the image is therefore covered by exactly one entry.

The printed listing writes one line per entry, `OO: text`, with the offset in
at least two upper-case hexadecimal digits; the labels at an entry's offset
come first, one `LABEL name` line each, in increasing order of name. Labels at
offsets that no entry starts at are not printed.

A ROM image is usually listed *trimmed*: without its trailing zero bytes.
-/

/-!
## Label tables

A label table maps label names to byte offsets in a program. Names are unique
and kept in increasing order (the order of code points, which is the byte
order of their UTF-8 encodings), so a table has one canonical form and prints
the same way however it was built. Inserting a name that is already present
replaces its offset: the later definition wins.
-/

namespace ByteMachine

/-- A table from label names to offsets, sorted by name with no name twice. -/
structure LabelTable where
  entries : List (String × Nat)
  deriving DecidableEq, Repr

namespace LabelTable

def empty : LabelTable := ⟨[]⟩

/-- Inserts `(name, offset)` into sorted entries, replacing an entry of the same name. -/
def insertEntry (name : String) (offset : Nat) : List (String × Nat) → List (String × Nat)
  | [] => [(name, offset)]
  | (n, o) :: rest =>
    if name < n then (name, offset) :: (n, o) :: rest
    else if name = n then (name, offset) :: rest
    else (n, o) :: insertEntry name offset rest

/-- The table with `name` at `offset`, whatever `name` was before. -/
def insert (t : LabelTable) (name : String) (offset : Nat) : LabelTable :=
  ⟨insertEntry name offset t.entries⟩

/-- The table of a list of pairs; when a name repeats, the later pair wins. -/
def ofList (pairs : List (String × Nat)) : LabelTable :=
  pairs.foldl (fun t p => t.insert p.1 p.2) empty

def find? (t : LabelTable) (name : String) : Option Nat :=
  t.entries.lookup name

/-- The names of the labels at an offset, in increasing order. -/
def namesAt (t : LabelTable) (offset : Nat) : List String :=
  (t.entries.filter (fun e => e.2 == offset)).map Prod.fst

end LabelTable

end ByteMachine

/-! ## Walks over a code image -/

namespace ByteMachine.Listing

/-- The image without its trailing zero bytes. -/
def trim (code : List UInt8) : List UInt8 :=
  (code.reverse.dropWhile (· == 0)).reverse

/-- How far the walk moves past a decoding result. -/
def advance : Except DecodeError Instruction → Nat
  | .ok i => i.width
  | .error _ => 1

theorem one_le_advance (d : Except DecodeError Instruction) : 1 ≤ advance d := by
  cases d with
  | ok i => simp [advance, Instruction.width, Kind.width]
  | error e => simp [advance]

/-- The entries of the walk from offset `pos` on. -/
def walkFrom (code : Array UInt8) (pos : Nat) : List (Nat × Except DecodeError Instruction) :=
  if _h : pos < code.size then
    let d := Instruction.decodeAt code pos
    (pos, d) :: walkFrom code (pos + advance d)
  else []
termination_by code.size - pos
decreasing_by
  have := one_le_advance (Instruction.decodeAt code pos)
  omega

/-- The offset the walk from `pos` stops at: just past its last entry, or `pos`
itself when it has none. -/
def endFrom (code : Array UInt8) (pos : Nat) : Nat :=
  if _h : pos < code.size then endFrom code (pos + advance (Instruction.decodeAt code pos))
  else pos
termination_by code.size - pos
decreasing_by
  have := one_le_advance (Instruction.decodeAt code pos)
  omega

/-- The entries of the walk over a whole image. -/
def walk (code : Array UInt8) : List (Nat × Except DecodeError Instruction) :=
  walkFrom code 0

/-- The offset the walk over a whole image stops at. -/
def walkEnd (code : Array UInt8) : Nat :=
  endFrom code 0

/-- How one entry is written: the instruction, or the error in angle brackets. -/
def entryText : Except DecodeError Instruction → String
  | .ok i => i.text
  | .error (.unknownOpcode b) => "<unknown opcode " ++ Text.hexByte b ++ ">"
  | .error e => "<" ++ e.message ++ ">"

/-- The lines of one entry, its labels first, each ending in a newline. -/
def entryLines (labels : LabelTable) (e : Nat × Except DecodeError Instruction) : String :=
  String.join ((labels.namesAt e.1).map fun n => "LABEL " ++ n ++ "\n") ++
    Text.hex 2 e.1 ++ ": " ++ entryText e.2 ++ "\n"

/-- The printed listing of an image. -/
def text (code : Array UInt8) (labels : LabelTable) : String :=
  String.join ((walk code).map (entryLines labels))

end ByteMachine.Listing
