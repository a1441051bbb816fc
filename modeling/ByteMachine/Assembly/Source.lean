import ByteMachine.Text.Unicode

/-!
# Assembly source

Assembly source is read in four steps before any word is looked up:

* the text is cut into lines, each line is cut at its first `#` (the rest is
  a comment), and the remainder is cut into statements at every `;`;
* each statement is cut into words at blanks, the word `...` standing for
  `NOP`, and empty statements are dropped;
* constants are expanded: `CONST name value…` makes every later or earlier
  word equal to `name` (case included) stand for the value words;
* every word is put in upper case, and a statement `IMM v` of two words gets a
  third word `0` (older programs always loaded register 0).

A statement is a *directive* when it starts with `LABEL` or `CONST` (in any
ASCII case) and has enough words: a label needs a name, a constant a name and
at least one value word. `LABEL LOOP:` names the label `LOOP`; a label whose
name would be empty is not a directive at all.
-/

namespace ByteMachine.Assembly

/-- A statement: its words, in order. -/
abbrev Statement := List String

/-- The two directives: a label at the position of the next instruction, and a
constant definition. -/
inductive Directive where
  | label (name : String)
  | const
  deriving DecidableEq, Repr

/-- Whether a word is `kw` up to the case of ASCII letters; `kw` is in upper case. -/
def keywordIs (word kw : String) : Bool :=
  word.toList.map Char.toUpper == kw.toList

def directive? : Statement → Option Directive
  | kw :: name :: rest =>
    if keywordIs kw "LABEL" then
      let n := String.ofList (name.toList.takeWhile (· ≠ ':'))
      if n.isEmpty then none else some (.label n)
    else if keywordIs kw "CONST" ∧ rest ≠ [] then some .const
    else none
  | _ => none

/-- Drops a carriage return that ends a line. -/
def dropReturn (line : List Char) : List Char :=
  if line.getLast? = some '\r' then line.dropLast else line

/-- The words of one statement, with `...` read as `NOP`. -/
def statementWords (cs : List Char) : Statement :=
  (Text.wordsFrom cs []).map fun w => if w = "..." then "NOP" else w

/-- The statements of a source text, comments removed, empty ones dropped. -/
def statements (source : String) : List Statement :=
  let lines := (source.toList.splitOn '\n').map dropReturn
  let pieces := lines.flatMap fun line => (line.takeWhile (· ≠ '#')).splitOn ';'
  (pieces.map statementWords).filter (· ≠ [])

/-- The constant definitions, later ones first, so that the first match wins. -/
def constants (stmts : List Statement) : List (String × Statement) :=
  (stmts.filterMap fun s =>
    match directive? s, s with
    | some .const, _ :: name :: value => some (name, value)
    | _, _ => none).reverse

/-- Replaces every word that names a constant by the constant's words. Constant
definitions themselves are left alone, and replaced words are not expanded again. -/
def expandConstants (stmts : List Statement) : List Statement :=
  let table := constants stmts
  stmts.map fun s =>
    if directive? s = some .const then s
    else s.flatMap fun w => (table.lookup w).getD [w]

/-- Completes the old two-word form `IMM v` to `IMM v 0`. -/
def completeImmediate (s : Statement) : Statement :=
  match s with
  | ["IMM", v] => ["IMM", v, "0"]
  | _ => s

/-- The statements of a source text, ready for the two passes. -/
def prepare (source : String) : List Statement :=
  (expandConstants (statements source)).map fun s => completeImmediate (s.map Text.upper)

end ByteMachine.Assembly
