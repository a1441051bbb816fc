/-!
# Registers

The machine has fifteen byte registers. The first eight are general purpose
and are written `%0` … `%7`; the other seven have fixed roles and names:
`ADDR`, `DATA`, `RAMA`, `RAMD`, `STCK` (the stack pointer), `OVFL` (the carry
out of the wide arithmetic operations) and `INPT` (the input register).

A `Register` can only hold an index below fifteen, so code that holds one never
checks bounds again.
-/

namespace ByteMachine

def registerCount : Nat := 15

def generalCount : Nat := 8

/-- One of the fifteen registers, by index. -/
structure Register where
  index : Fin 15
  deriving DecidableEq, Repr

namespace Register

/-- The register with index `n`, if `n < 15`. -/
def ofNat? (n : Nat) : Option Register :=
  if h : n < 15 then some ⟨⟨n, h⟩⟩ else none

/-- The general-purpose register with index `n`, if `n < 8`. -/
def general? (n : Nat) : Option Register :=
  if n < generalCount then ofNat? n else none

def ofByte? (b : UInt8) : Option Register :=
  ofNat? b.toNat

def isGeneral (r : Register) : Bool :=
  r.index.val < generalCount

def addr : Register := ⟨8⟩
def data : Register := ⟨9⟩
def ramAddr : Register := ⟨10⟩
def ramData : Register := ⟨11⟩
def stack : Register := ⟨12⟩
/-- The register that receives the high byte of the wide operations. -/
def overflow : Register := ⟨13⟩
def input : Register := ⟨14⟩

/-- The names of the registers with fixed roles. -/
def aliases : List (String × Register) :=
  [("ADDR", addr), ("DATA", data), ("RAMA", ramAddr), ("RAMD", ramData),
   ("STCK", stack), ("OVFL", overflow), ("INPT", input)]

/-- The register a name denotes. Names are matched exactly, case included. -/
def ofAlias? (name : String) : Option Register :=
  (aliases.find? (fun e => e.1 == name)).map Prod.snd

def alias? (r : Register) : Option String :=
  (aliases.find? (fun e => e.2 == r)).map Prod.fst

/-- How a register is written: its name, or `%` and its index. -/
def text (r : Register) : String :=
  match r.alias? with
  | some name => name
  | none => "%" ++ toString r.index.val

/-- All registers in index order. -/
def all : List Register :=
  (List.finRange 15).map Register.mk

end Register

end ByteMachine
