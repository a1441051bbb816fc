/-!
# Bytes as text

Bytes are printed as upper-case hexadecimal numerals, and byte streams are
read as text the lossy UTF-8 way.
-/

/-!
## Hexadecimal numerals

Listings, machine dumps and error messages print numbers in upper-case
hexadecimal, padded with zeros to a least width.
-/

namespace ByteMachine.Text

/-- The upper-case hexadecimal digit of `d < 16`. -/
def hexDigit (d : Nat) : Char :=
  if d < 10 then Char.ofNat (48 + d) else Char.ofNat (55 + d)

/-- The hexadecimal digits of `n`, most significant first, without leading zeros. -/
def hexDigits (n : Nat) : List Char :=
  if n < 16 then [hexDigit n] else hexDigits (n / 16) ++ [hexDigit (n % 16)]
termination_by n
decreasing_by omega

/-- `n` in upper-case hexadecimal, padded with zeros to at least `width` digits. -/
def hex (width n : Nat) : String :=
  let ds := hexDigits n
  String.ofList (List.replicate (width - ds.length) '0' ++ ds)

def hexByte (b : UInt8) : String :=
  hex 2 b.toNat

end ByteMachine.Text

/-!
## Reading bytes as UTF-8

Bytes are read as UTF-8 the lossy way. Every well-formed sequence gives its
character. Every maximal ill-formed part gives one replacement character
`U+FFFD`: that is a lone byte that cannot start a sequence, or the longest
prefix of a sequence that could still have become well-formed. This is how an
output stream that received raw bytes reads as text.

The decoder is a small state machine over the bytes: either no sequence is
under way, or one is, with the number of continuation bytes still due, the
bits read so far, and the range the next byte must lie in. The ranges exclude
overlong forms, surrogates and code points above `U+10FFFF`.
-/

namespace ByteMachine.Text

/-- A multi-byte sequence under way: how many continuation bytes are still due, the
bits of the code point read so far, and the least and greatest byte allowed next. -/
structure Pending where
  due : Nat
  value : Nat
  lo : Nat
  hi : Nat
  deriving DecidableEq, Repr

namespace Utf8

/-- The replacement character, shown for bytes that do not form a character. -/
def replacement : Char := Char.ofNat 0xFFFD

/-- What a byte does when no sequence is under way: it is a character of its
own, starts a longer sequence, or cannot start one and is replaced. -/
def start (b : Nat) : List Char × Option Pending :=
  if b < 0x80 then ([Char.ofNat b], none)
  else if 0xC2 ≤ b ∧ b ≤ 0xDF then ([], some ⟨1, b - 0xC0, 0x80, 0xBF⟩)
  else if b = 0xE0 then ([], some ⟨2, 0, 0xA0, 0xBF⟩)
  else if b = 0xED then ([], some ⟨2, 0xD, 0x80, 0x9F⟩)
  else if 0xE1 ≤ b ∧ b ≤ 0xEF then ([], some ⟨2, b - 0xE0, 0x80, 0xBF⟩)
  else if b = 0xF0 then ([], some ⟨3, 0, 0x90, 0xBF⟩)
  else if 0xF1 ≤ b ∧ b ≤ 0xF3 then ([], some ⟨3, b - 0xF0, 0x80, 0xBF⟩)
  else if b = 0xF4 then ([], some ⟨3, 4, 0x80, 0x8F⟩)
  else ([replacement], none)

/-- The characters of `bytes`, read after the given state. A byte that breaks a
sequence replaces what was read of it and is then read afresh; a sequence cut
off by the end is replaced. -/
def decodeFrom : Option Pending → List UInt8 → List Char
  | none, [] => []
  | some _, [] => [replacement]
  | none, b :: bs =>
    let (cs, st) := start b.toNat
    cs ++ decodeFrom st bs
  | some p, b :: bs =>
    let n := b.toNat
    if p.lo ≤ n ∧ n ≤ p.hi then
      let v := p.value * 64 + (n - 0x80)
      if p.due = 1 then Char.ofNat v :: decodeFrom none bs
      else decodeFrom (some ⟨p.due - 1, v, 0x80, 0xBF⟩) bs
    else
      let (cs, st) := start n
      replacement :: (cs ++ decodeFrom st bs)

/-- The text that `bytes` read as, lossily. -/
def lossy (bytes : List UInt8) : String :=
  String.ofList (decodeFrom none bytes)

/-- ASCII bytes read as themselves. -/
theorem decodeFrom_ascii (b : UInt8) (bs : List UInt8) (h : b.toNat < 0x80) :
    decodeFrom none (b :: bs) = Char.ofNat b.toNat :: decodeFrom none bs := by
  simp [decodeFrom, start, h]

end Utf8

end ByteMachine.Text
