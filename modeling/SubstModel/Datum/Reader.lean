import SubstModel.Datum
import SubstModel.Keyword
import SubstModel.Symbol
import SubstModel.Text.Delimiter

/-!
# The reader — from text to data

The reader goes over the characters once, from left to right.  What it cannot read is a `Fault`; a fault keeps
the text that was left where it arose, from which a position is counted.

* `skip` — drops blanks and comments;
* `ofWord?` — the number, truth value or symbol that a word spells;
* `readString` — the rest of a string literal after its opening quote;
* `read` — one datum, with room for a given number of nested lists and quotes (`maxNesting` at the outset);
* `readAll` — all data of a text.

`read` recurses on the room that is left, so the limit on nesting is what makes it end.  The members of one list
are read in a loop that is bounded by the characters of the list.
-/

namespace SubstModel.Datum

/-- A datum stands inside fewer than this many lists and quotes. -/
def maxNesting : Nat := 64

/-- What keeps a text from being read. -/
inductive Fault where
  /-- No datum starts here. -/
  | unreadable
  /-- A string has an unknown escape, or no closing quote: `rest` starts where that shows. -/
  | badString (rest : List Char)
  /-- The text ends inside a list. -/
  | unclosed
  /-- A datum stands inside too many lists and quotes. -/
  | tooDeep
  deriving DecidableEq, Repr

/-! ### Blanks and words -/

/-- Drops blanks, and comments from `;` up to a line feed.  The flag says whether the text starts inside a
comment. -/
def skipFrom : Bool → List Char → List Char
  | _, [] => []
  | true, c :: cs => if c = '\n' then skipFrom false cs else skipFrom true cs
  | false, c :: cs =>
    if Text.isBlank c then skipFrom false cs
    else if c = ';' then skipFrom true cs
    else c :: cs

/-- Drops the blanks and comments at the start of a text. -/
def skip (cs : List Char) : List Char :=
  skipFrom false cs

/-- The truth value that a word spells. -/
def boolOfWord? (cs : List Char) : Option Bool :=
  if cs = ['#', 't'] ∨ cs = ['#', 't', 'r', 'u', 'e'] then some true
  else if cs = ['#', 'f'] ∨ cs = ['#', 'f', 'a', 'l', 's', 'e'] then some false
  else none

/-- The datum that a word without delimiters spells. -/
def ofWord? (cs : List Char) : Option Datum :=
  match Number.ofWord? cs with
  | some x => some (.number x)
  | none =>
    match boolOfWord? cs with
    | some b => some (.boolean b)
    | none => if isSymbolWord cs then some (.symbol (String.ofList cs)) else none

/-- The longest word at the start of a text. -/
def word (cs : List Char) : List Char :=
  cs.takeWhile fun c => !Text.isDelimiter c

/-- What follows the longest word at the start of a text. -/
def afterWord (cs : List Char) : List Char :=
  cs.dropWhile fun c => !Text.isDelimiter c

/-! ### Data -/

/-- Reads a string literal after its opening quote: its characters, and the text after the closing quote. -/
def readString : List Char → Except Fault (List Char × List Char)
  | [] => .error (.badString [])
  | c :: cs =>
    if c = '"' then .ok ([], cs)
    else if c = '\\' then
      match cs with
      | [] => .error (.badString [c])
      | d :: ds =>
        match Text.unescape d with
        | none => .error (.badString (c :: d :: ds))
        | some e => (readString ds).map fun (s, rest) => (e :: s, rest)
    else (readString cs).map fun (s, rest) => (c :: s, rest)

/-- Reads the members of a list up to its closing parenthesis, one after another with `readOne`.  The number
bounds the members that are read; every member has a character of its own. -/
def readItems (readOne : List Char → Except Fault (Datum × List Char)) :
    Nat → List Char → Except Fault (List Datum × List Char)
  | 0, _ => .error .unclosed
  | n + 1, cs =>
    match skip cs with
    | [] => .error .unclosed
    | ')' :: rest => .ok ([], rest)
    | rest => do
      let (d, rest) ← readOne rest
      let (ds, rest) ← readItems readOne n rest
      return (d :: ds, rest)

/-- Reads one datum at the very start of a text, with room for the given number of nested data. -/
def read : Nat → List Char → Except Fault (Datum × List Char)
  | 0, _ => .error .tooDeep
  | _ + 1, [] => .error .unreadable
  | room + 1, c :: cs =>
    if c = Text.quoteMark then do
      let (d, rest) ← read room (skip cs)
      return (.list [.symbol Keyword.quote.name, d], rest)
    else if c = '(' then do
      let (ds, rest) ← readItems (read room) (cs.length + 1) cs
      return (.list ds, rest)
    else if c = '"' then do
      let (s, rest) ← readString cs
      return (.string (String.ofList s), rest)
    else
      match ofWord? (word (c :: cs)) with
      | some d => .ok (d, afterWord (c :: cs))
      | none => .error .unreadable

/-- Reads data up to the end of a text.  A fault comes with the text at the start of the outermost datum it
arose in.  The number bounds the data that are read; every datum has a character of its own. -/
def readForms : Nat → List Char → Except (Fault × List Char) (List Datum)
  | 0, _ => .ok []
  | n + 1, cs =>
    match skip cs with
    | [] => .ok []
    | start => do
      let (d, rest) ← (read maxNesting start).mapError fun fault => (fault, start)
      let ds ← readForms n rest
      return d :: ds

/-- All data of a text. -/
def readAll (cs : List Char) : Except (Fault × List Char) (List Datum) :=
  readForms (cs.length + 1) cs

end SubstModel.Datum
