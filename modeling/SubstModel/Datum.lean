import SubstModel.Number.Text
import SubstModel.Text.Quoted

/-!
# Data — the trees that text spells

A datum is what the reader makes of text: an atom or a list of data.

* `Datum` — numbers, truth values, strings, symbols and lists;
* `form` — the written form of a list whose members are already written;
* `Datum.written` — the written form of a datum, which reads back as the same datum.
-/

namespace SubstModel

/-- A tree of atoms. -/
inductive Datum where
  | number (x : Float)
  | boolean (b : Bool)
  | string (s : String)
  | symbol (s : String)
  | list (items : List Datum)
  deriving Inhabited

/-! ### Written forms -/

/-- Words with single spaces between them. -/
def spaced : List (List Char) → List Char
  | [] => []
  | [w] => w
  | w :: ws => w ++ ' ' :: spaced ws

/-- Words between parentheses with single spaces between them. -/
def form (words : List (List Char)) : List Char :=
  '(' :: spaced words ++ [')']

/-- The written form of a truth value. -/
def boolWord : Bool → List Char
  | true => ['#', 't']
  | false => ['#', 'f']

namespace Datum

mutual

/-- The written form of a datum. -/
def written : Datum → List Char
  | .number x => Number.written x
  | .boolean b => boolWord b
  | .string s => Text.quoted s
  | .symbol s => s.toList
  | .list items => form (writtenAll items)

/-- The written forms of the data of a list. -/
def writtenAll : List Datum → List (List Char)
  | [] => []
  | d :: ds => written d :: writtenAll ds

end

/-- The text of a datum. -/
def text (d : Datum) : String :=
  String.ofList d.written

theorem writtenAll_eq_map (ds : List Datum) : writtenAll ds = ds.map written := by
  induction ds with
  | nil => rfl
  | cons d ds ih => rw [writtenAll, ih, List.map_cons]

end Datum

end SubstModel
