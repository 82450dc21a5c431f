import SubstModel.Text.Alphanumeric

/-!
# Blanks and delimiters — where a word ends and what may stand between words

Two classes of characters are kept apart, and they differ on purpose:

* `isBlank` — the four characters that are skipped between data: space, tab, carriage return, line feed;
* `isWhiteSpace` — the Unicode property `White_Space`, of which the blanks are a part
  (`isWhiteSpace_of_isBlank`);
* `isDelimiter` — white space and the five marks `( ) ' ; "`: a word that is not a string ends in front of one.

So a no-break space ends a word, but nothing skips it.
-/

namespace SubstModel.Text

/-- Space, tab, carriage return and line feed, which may stand between data. -/
def isBlank (c : Char) : Bool :=
  c == ' ' || c == '\t' || c == '\r' || c == '\n'

/-- The closed ranges of code points with the property `White_Space`. -/
def whiteSpaceRanges : List (Nat × Nat) := [
  (0x9, 0xD), (0x20, 0x20), (0x85, 0x85), (0xA0, 0xA0), (0x1680, 0x1680), (0x2000, 0x200A),
  (0x2028, 0x2029), (0x202F, 0x202F), (0x205F, 0x205F), (0x3000, 0x3000)]

/-- The character has the Unicode property `White_Space`. -/
def isWhiteSpace (c : Char) : Bool :=
  inRanges whiteSpaceRanges c.toNat

/-- The quote mark `'`, which stands in front of a quoted datum. -/
def quoteMark : Char := '\x27'

/-- A word that is not a string ends in front of a delimiter or at the end of the text. -/
def isDelimiter (c : Char) : Bool :=
  isWhiteSpace c || c == '(' || c == ')' || c == quoteMark || c == ';' || c == '"'

/-- Every blank is white space. -/
theorem isWhiteSpace_of_isBlank {c : Char} (h : isBlank c = true) : isWhiteSpace c = true := by
  simp only [isBlank, Bool.or_eq_true, beq_iff_eq] at h
  rcases h with ((rfl | rfl) | rfl) | rfl <;> decide

/-- Every blank ends a word. -/
theorem isDelimiter_of_isBlank {c : Char} (h : isBlank c = true) : isDelimiter c = true := by
  simp [isDelimiter, isWhiteSpace_of_isBlank h]

end SubstModel.Text
