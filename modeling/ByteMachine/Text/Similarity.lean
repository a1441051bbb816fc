/-!
# Jaro similarity

The Jaro similarity of two words is a number between 0 and 1 that is high
when the words share many characters in nearly the same places. With `m`
matching characters (equal characters at most `max(|a|, |b|) / 2 - 1` places
apart, each used once) and `t` half the number of matched pairs that appear in
a different order, it is `(m / |a| + m / |b| + (m - t) / m) / 3`, and 0 when
nothing matches. Two empty words are fully similar.

The command line suggests an option name whose similarity to a mistyped one is
above 0.7. The value is computed in binary floating point, in the order of
the formula above, so that the comparison with 0.7 comes out the same as in
any other IEEE double computation of it.
-/

namespace ByteMachine.Text

/-- Marks, for each character of `a` in turn, the first unmarked equal character
of `b` within `range` places; returns the marks on `a` and on `b`. -/
def jaroMarks (range : Nat) (a b : List Char) : List Bool × List Bool :=
  let step (acc : List Bool × List Bool × Nat) (c : Char) : List Bool × List Bool × Nat :=
    let (am, bm, i) := acc
    let lo := i - range
    let hi := min b.length (i + range + 1)
    let found := (List.range hi).find? fun j =>
      lo ≤ j && b[j]? == some c && bm[j]? == some false
    match found with
    | some j => (am ++ [true], bm.set j true, i + 1)
    | none => (am ++ [false], bm, i + 1)
  let (am, bm, _) := a.foldl step ([], List.replicate b.length false, 0)
  (am, bm)

/-- The characters of `s` whose mark is set, in order. -/
def marked (s : List Char) (marks : List Bool) : List Char :=
  ((s.zip marks).filter Prod.snd).map Prod.fst

/-- The number of positions where two lists differ. -/
def mismatches : List Char → List Char → Nat
  | x :: xs, y :: ys => (if x = y then 0 else 1) + mismatches xs ys
  | _, _ => 0

/-- The Jaro similarity of two words. -/
def jaro (a b : String) : Float :=
  let a := a.toList
  let b := b.toList
  if a.isEmpty && b.isEmpty then 1.0
  else if a.isEmpty || b.isEmpty then 0.0
  else
    let range := max a.length b.length / 2 - 1
    let (am, bm) := jaroMarks range a b
    let ma := marked a am
    let m := ma.length
    if m = 0 then 0.0
    else
      let t := mismatches ma (marked b bm) / 2
      let mf := m.toFloat
      (mf / a.length.toFloat + mf / b.length.toFloat + (m - t).toFloat / mf) / 3.0

end ByteMachine.Text
