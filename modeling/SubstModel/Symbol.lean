import SubstModel.Text.Alphanumeric

/-!
# Symbols — the words that name things

A symbol is a word of alphanumeric characters and the marks `+ - * / < > = ! ? _ $` that cannot be mistaken for
a number: it starts with no digit, and with no sign that a digit or a point follows.

* `isSymbolChar` — the characters of symbols;
* `isSymbolWord`, `isSymbol` — the words that are symbols;
* `not_isSymbol_of_hash` — no symbol holds the mark `#`, which keeps generated names apart from written ones.
-/

namespace SubstModel

/-- The marks that a symbol may hold besides alphanumeric characters. -/
def symbolMarks : List Char :=
  ['+', '-', '*', '/', '<', '>', '=', '!', '?', '_', '$']

/-- The characters that a symbol may hold. -/
def isSymbolChar (c : Char) : Bool :=
  Text.isAlphanumeric c || symbolMarks.contains c

/-- The start of a word that would be read as a number: a digit, or a sign and then a digit or a point. -/
def startsNumber : List Char → Bool
  | [] => false
  | [c] => c.isDigit
  | c :: d :: _ => c.isDigit || ((c == '-' || c == '+') && (d.isDigit || d == '.'))

/-- The word is a symbol. -/
def isSymbolWord (cs : List Char) : Bool :=
  !cs.isEmpty && !startsNumber cs && cs.all isSymbolChar

/-- The string is a symbol. -/
def isSymbol (s : String) : Bool :=
  isSymbolWord s.toList

theorem not_isSymbolChar_hash : isSymbolChar '#' = false := by decide

/-- **No symbol holds the mark `#`.** -/
theorem not_isSymbol_of_hash {s : String} (h : '#' ∈ s.toList) : isSymbol s = false := by
  have hall : s.toList.all isSymbolChar = false := by
    rw [List.all_eq_false]
    exact ⟨'#', h, by simp [not_isSymbolChar_hash]⟩
  simp [isSymbol, isSymbolWord, hall]

end SubstModel
