import Mathlib.Data.List.Forall2
import Mathlib.Data.Nat.Digits.Defs
import SubstModel.Datum.OfText

/-!
# Spelling — the grammar of data

What a text is made of is said here by relations that know nothing of the reader: neither its steps nor its classes of
characters and values of digits.  Each relates a text to what its start means and to the text behind that; how long a
word is and where a comment ends is left open, so that several readings of one text are not excluded by definition.  Two
things are taken as given: which characters are alphanumeric, and which float is nearest to a number.

* `Blank`, `Delimiter`, `HexDigit` — characters that separate data, that end words, and that are digits of base 16;
* `Separates` — a run of blanks and comments;
* `SymbolWord` — the words that are symbols;
* `Word` — numbers, truth values and symbols;
* `Literal` — the rest of a string literal after its opening quote;
* `Spells`, `SpellsAll` — one datum, and data one after another;
* `SpellsText` — the data of a whole text;
* `Datum.depth` — how many lists and quotes stand around the innermost part of a datum.
-/

namespace SubstModel

/-! ### Characters -/

/-- The four characters that may stand between data. -/
inductive Blank : Char → Prop
  | space : Blank ' '
  | tab : Blank '\t'
  | carriageReturn : Blank '\r'
  | lineFeed : Blank '\n'

/-- The code points with the Unicode property `White_Space`. -/
def whiteSpacePoints : List Nat := [
  0x9, 0xA, 0xB, 0xC, 0xD, 0x20, 0x85, 0xA0, 0x1680, 0x2000, 0x2001, 0x2002, 0x2003, 0x2004, 0x2005, 0x2006, 0x2007,
  0x2008, 0x2009, 0x200A, 0x2028, 0x2029, 0x202F, 0x205F, 0x3000]

/-- White space and the five marks in front of which a word that is no string may end. -/
inductive Delimiter : Char → Prop
  | whiteSpace {c : Char} (point : c.toNat ∈ whiteSpacePoints) : Delimiter c
  | opening : Delimiter '('
  | closing : Delimiter ')'
  | quote : Delimiter '\x27'
  | comment : Delimiter ';'
  | string : Delimiter '"'

/-- The twenty-two digits of base 16, each with its value. -/
def hexDigitValues : List (Char × Nat) := [
  ('0', 0), ('1', 1), ('2', 2), ('3', 3), ('4', 4), ('5', 5), ('6', 6), ('7', 7), ('8', 8), ('9', 9),
  ('a', 10), ('b', 11), ('c', 12), ('d', 13), ('e', 14), ('f', 15),
  ('A', 10), ('B', 11), ('C', 12), ('D', 13), ('E', 14), ('F', 15)]

/-- The character is a digit of base 16 with the value. -/
def HexDigit (c : Char) (n : Nat) : Prop :=
  (c, n) ∈ hexDigitValues

/-! ### Between data -/

/-- The text starts with a run of blanks and comments, behind which the rest stands. -/
inductive Separates : List Char → List Char → Prop
  | nothing {rest : List Char} : Separates rest rest
  | blank {c : Char} {cs rest : List Char} (isBlank : Blank c) (behind : Separates cs rest) : Separates (c :: cs) rest
  /-- A comment goes up to the next line feed. -/
  | comment {body cs rest : List Char} (oneLine : '\n' ∉ body) (behind : Separates cs rest) :
    Separates (';' :: body ++ '\n' :: cs) rest
  /-- On its last line a text may end inside a comment. -/
  | lastComment {body : List Char} (oneLine : '\n' ∉ body) : Separates (';' :: body) []

/-- A word that is no string may end in front of the rest: there is none, or it starts with a delimiter. -/
def WordEnds (rest : List Char) : Prop :=
  ∀ c ∈ rest.head?, Delimiter c

/-! ### Words -/

/-- Unsigned decimals `digits(.digits*)?`: the number nearest to all the digits over a power of ten, whose exponent is the
number of digits behind the point. -/
inductive UnsignedWord : List Char → Float → Prop
  | whole {ds : List Char} (nonempty : ds ≠ []) (digits : ∀ c ∈ ds, c.isDigit = true) :
    UnsignedWord ds (Float.ofScientific (Nat.ofDigitChars 10 ds 0) true 0)
  | fraction {ds fs : List Char} (nonempty : ds ≠ []) (digits : ∀ c ∈ ds, c.isDigit = true)
    (places : ∀ c ∈ fs, c.isDigit = true) :
    UnsignedWord (ds ++ '.' :: fs) (Float.ofScientific (Nat.ofDigitChars 10 (ds ++ fs) 0) true fs.length)

/-- Decimals `[+-]?digits(.digits*)?`. -/
inductive DecimalWord : List Char → Float → Prop
  | unsigned {cs : List Char} {x : Float} (magnitude : UnsignedWord cs x) : DecimalWord cs x
  | plus {cs : List Char} {x : Float} (magnitude : UnsignedWord cs x) : DecimalWord ('+' :: cs) x
  | minus {cs : List Char} {x : Float} (magnitude : UnsignedWord cs x) : DecimalWord ('-' :: cs) (-x)

/-- Hexadecimal words: `#x` or `#X` and digits, the first of which weighs most, with a value that fits 63 bits. -/
inductive HexadecimalWord : List Char → Float → Prop
  | digits {x : Char} {cs : List Char} {values : List Nat} (base : x = 'x' ∨ x = 'X') (nonempty : cs ≠ [])
    (digits : List.Forall₂ HexDigit cs values)
    (fits : Nat.ofDigits 16 values.reverse < 2 ^ 63) :
    HexadecimalWord ('#' :: x :: cs) (Float.ofNat (Nat.ofDigits 16 values.reverse))

/-- The words `#t`, `#true`, `#f`, `#false`. -/
inductive TruthWord : List Char → Bool → Prop
  | t : TruthWord ['#', 't'] true
  | true : TruthWord ['#', 't', 'r', 'u', 'e'] true
  | f : TruthWord ['#', 'f'] false
  | false : TruthWord ['#', 'f', 'a', 'l', 's', 'e'] false

/-- The marks that a symbol may hold besides alphanumeric characters. -/
def wordMarks : List Char :=
  ['+', '-', '*', '/', '<', '>', '=', '!', '?', '_', '$']

/-- Alphanumeric characters and marks that do not start as a number does. -/
structure SymbolWord (cs : List Char) : Prop where
  nonempty : cs ≠ []
  characters : ∀ c ∈ cs, Text.isAlphanumeric c = true ∨ c ∈ wordMarks
  noDigit : ∀ c rest, cs = c :: rest → c.isDigit = false
  /-- No digit and no point follows a sign. -/
  noSign : ∀ c d rest, cs = c :: d :: rest → c = '+' ∨ c = '-' → d.isDigit = false ∧ d ≠ '.'

/-- The words that are no strings, with the data they spell. -/
inductive Word : List Char → Datum → Prop
  | decimal {cs : List Char} {x : Float} (word : DecimalWord cs x) : Word cs (.number x)
  | hexadecimal {cs : List Char} {x : Float} (word : HexadecimalWord cs x) : Word cs (.number x)
  | boolean {cs : List Char} {b : Bool} (word : TruthWord cs b) : Word cs (.boolean b)
  | symbol {s : String} (word : SymbolWord s.toList) : Word s.toList (.symbol s)

/-! ### Strings -/

/-- The five escapes: the letter or mark behind a backslash, and the character that the two stand for. -/
inductive Escape : Char → Char → Prop
  | lineFeed : Escape 'n' '\n'
  | tab : Escape 't' '\t'
  | carriageReturn : Escape 'r' '\r'
  | backslash : Escape '\\' '\\'
  | quote : Escape '"' '"'

/-- What follows the opening quote of a string literal, the characters of the string, and what follows its closing
quote. -/
inductive Literal : List Char → List Char → List Char → Prop
  | close {rest : List Char} : Literal ('"' :: rest) [] rest
  | plain {c : Char} {cs s rest : List Char} (noQuote : c ≠ '"') (noBackslash : c ≠ '\\')
    (more : Literal cs s rest) : Literal (c :: cs) (c :: s) rest
  | escape {e c : Char} {cs s rest : List Char} (escape : Escape e c) (more : Literal cs s rest) :
    Literal ('\\' :: e :: cs) (c :: s) rest

/-! ### Data -/

mutual

/-- The text starts with a datum, behind which the rest stands. -/
inductive Spells : List Char → Datum → List Char → Prop
  | word {w rest : List Char} {d : Datum} (word : Word w d) (ends : WordEnds rest) : Spells (w ++ rest) d rest
  | string {cs s rest : List Char} (literal : Literal cs s rest) :
    Spells ('"' :: cs) (.string (String.ofList s)) rest
  /-- The quote mark stands for the list of `quote` and the datum behind it. -/
  | quote {cs start rest : List Char} {d : Datum} (separates : Separates cs start) (datum : Spells start d rest) :
    Spells ('\x27' :: cs) (.list [.symbol "quote", d]) rest
  | list {cs stop rest : List Char} {ds : List Datum} (members : SpellsAll cs ds stop)
    (separates : Separates stop (')' :: rest)) : Spells ('(' :: cs) (.list ds) rest

/-- The text starts with data, each perhaps with blanks and comments in front of it, behind which the rest stands. -/
inductive SpellsAll : List Char → List Datum → List Char → Prop
  | nil {rest : List Char} : SpellsAll rest [] rest
  | cons {cs start behind rest : List Char} {d : Datum} {ds : List Datum} (separates : Separates cs start)
    (datum : Spells start d behind) (more : SpellsAll behind ds rest) : SpellsAll cs (d :: ds) rest

end

/-- The text is a sequence of data, with blanks and comments behind the last as well. -/
def SpellsText (cs : List Char) (ds : List Datum) : Prop :=
  ∃ rest, SpellsAll cs ds rest ∧ Separates rest []

namespace Datum

mutual

/-- How many lists and quotes stand around the innermost part of a datum. -/
def depth : Datum → Nat
  | .number _ | .boolean _ | .string _ | .symbol _ => 0
  | .list ds => depthAll ds

/-- How many stand around the innermost part of the members of a list, the list itself among them. -/
def depthAll : List Datum → Nat
  | [] => 0
  | d :: ds => max (depth d + 1) (depthAll ds)

end

/-- A list has room where its members have room for one level less. -/
theorem depth_list_lt_iff {ds : List Datum} {room : Nat} :
    (Datum.list ds).depth < room + 1 ↔ ∀ d ∈ ds, d.depth < room := by
  rw [depth]
  induction ds with
  | nil => simp [depthAll]
  | cons d ds ih => rw [depthAll, List.forall_mem_cons, ← ih, Nat.max_lt, Nat.succ_lt_succ_iff]

/-- A quoted datum stands one level deeper. -/
theorem depth_quote (s : String) (d : Datum) : (Datum.list [.symbol s, d]).depth = d.depth + 1 := by
  simp [depth, depthAll]

end Datum

/-! ### What follows a separator -/

theorem Separates.isSuffix {cs rest : List Char} (h : Separates cs rest) : rest <:+ cs := by
  induction h with
  | nothing => exact List.suffix_rfl
  | blank _ _ ih => exact ih.trans (List.suffix_cons _ _)
  | @comment body cs rest _ _ ih =>
    have hline : cs <:+ ';' :: body ++ '\n' :: cs := (List.suffix_cons '\n' cs).trans (List.suffix_append _ _)
    exact ih.trans hline
  | lastComment => exact List.nil_suffix

theorem Separates.length_le {cs rest : List Char} (h : Separates cs rest) : rest.length ≤ cs.length :=
  h.isSuffix.length_le

end SubstModel
