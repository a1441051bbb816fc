/-!
# Reading integers

Integers are read the same way everywhere in the toolchain: an optional sign,
then the digits, left to right. Reading stops at the first fault, and the fault
says which of four things went wrong. In particular, a text whose digits
overflow before a bad character is reached is *too large*, while a bad
character met before any overflow makes the text *invalid*.

A minus sign is accepted only when the wanted range has negative numbers.
A lone sign is an invalid digit, not an empty text.

The literals of assembly source are read on top of this, in signed 64-bit
integers that saturate instead of failing.
-/

namespace ByteMachine

/-- Why a text is not an integer of the wanted range. A lone sign is an invalid
digit. -/
inductive NumeralFault where
  | empty
  | invalidDigit
  | tooLarge
  | tooSmall
  deriving DecidableEq, Repr

namespace NumeralFault

def message : NumeralFault → String
  | empty => "cannot parse integer from empty string"
  | invalidDigit => "invalid digit found in string"
  | tooLarge => "number too large to fit in target type"
  | tooSmall => "number too small to fit in target type"

end NumeralFault

namespace Numeral

/-- The value of `c` as a digit of `radix` (at most 36), if it is one. Only ASCII
digits and letters are digits; letters count from ten in either case. -/
def digitValue (radix : Nat) (c : Char) : Option Nat :=
  let n := c.toNat
  let d :=
    if 48 ≤ n ∧ n ≤ 57 then n - 48
    else if 97 ≤ n ∧ n ≤ 122 then n - 87
    else if 65 ≤ n ∧ n ≤ 90 then n - 55
    else 36
  if d < radix then some d else none

/-- Appends the digits `cs` to `acc`, moving away from zero: upwards when `up`,
downwards otherwise. The first character that is not a digit, or the first digit
that leaves `[lo, hi]`, ends the reading. -/
def accumulate (radix : Nat) (lo hi : Int) (up : Bool) : Int → List Char → Except NumeralFault Int
  | acc, [] => .ok acc
  | acc, c :: cs =>
    match digitValue radix c with
    | none => .error .invalidDigit
    | some d =>
      let next := if up then acc * radix + d else acc * radix - d
      if up ∧ hi < next then .error .tooLarge
      else if !up ∧ next < lo then .error .tooSmall
      else accumulate radix lo hi up next cs

/-- Reads an integer of `radix` that must lie in `[lo, hi]`, where `lo ≤ 0 ≤ hi`. -/
def read (radix : Nat) (lo hi : Int) (s : String) : Except NumeralFault Int :=
  match s.toList with
  | [] => .error .empty
  | ['+'] => .error .invalidDigit
  | ['-'] => .error .invalidDigit
  | '+' :: cs => accumulate radix lo hi true 0 cs
  | '-' :: cs => if lo < 0 then accumulate radix lo hi false 0 cs else .error .invalidDigit
  | cs => accumulate radix lo hi true 0 cs

def int64Max : Int := 9223372036854775807

/-- The smallest value of a signed 64-bit integer. -/
def int64Min : Int := -9223372036854775808

/-- The largest value of an unsigned 64-bit integer, the range of positions. -/
def word64Max : Nat := 18446744073709551615

/-- Reads a decimal natural number no larger than `bound`. -/
def readNat (bound : Nat) (s : String) : Except NumeralFault Nat :=
  (read 10 0 bound s).map Int.toNat

def readInt64 (s : String) : Except NumeralFault Int :=
  read 10 int64Min int64Max s

end Numeral

end ByteMachine

/-!
## Literals

A literal in assembly is a decimal number, a hexadecimal number after `0x`,
a binary number after `0b` (either prefix in either case), or a double quote
followed by a character, which stands for that character's code point modulo
256. The digits after a prefix may carry their own sign, so `0x-5` is `-5`
while `-0x5` is not a literal.

Numbers that do not fit a signed 64-bit integer saturate to its bounds instead
of failing, so that they still read as out of the byte range later.
-/

namespace ByteMachine.Literal

open Numeral

/-- Reads digits of `radix` as a signed 64-bit integer, saturating on overflow. -/
def radixValue (radix : Nat) (cs : List Char) : Option Int :=
  match read radix int64Min int64Max (String.ofList cs) with
  | .ok v => some v
  | .error .tooLarge => some int64Max
  | .error .tooSmall => some int64Min
  | .error _ => none

/-- The value of a literal token, or `none` when the token is not a literal. -/
def parse (token : String) : Option Int :=
  match token.toList with
  | '0' :: 'x' :: cs | '0' :: 'X' :: cs => radixValue 16 cs
  | '0' :: 'b' :: cs | '0' :: 'B' :: cs => radixValue 2 cs
  | '"' :: c :: _ => some (c.toNat % 256 : Nat)
  | ['"'] => none
  | cs => radixValue 10 cs

end ByteMachine.Literal
