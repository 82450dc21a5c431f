/-!
# String literals — the written form of a string

A string is written between double quotes.  Five characters are written as a backslash and a letter or mark,
and every other character stands for itself.

* `escape` — the letter or mark that stands for a character after the backslash, if it needs one;
* `unescape` — the character that such a letter or mark stands for; the two are inverse
  (`unescape_eq_some_iff`);
* `quoted` — the literal of a string.
-/

namespace SubstModel.Text

/-- What follows the backslash in the written form of `c`, when `c` cannot stand for itself. -/
def escape (c : Char) : Option Char :=
  if c = '"' then some '"'
  else if c = '\\' then some '\\'
  else if c = '\n' then some 'n'
  else if c = '\t' then some 't'
  else if c = '\r' then some 'r'
  else none

/-- The character that a backslash followed by `c` stands for. -/
def unescape (c : Char) : Option Char :=
  if c = '"' then some '"'
  else if c = '\\' then some '\\'
  else if c = 'n' then some '\n'
  else if c = 't' then some '\t'
  else if c = 'r' then some '\r'
  else none

/-- A letter after the backslash stands for `c` exactly when it is the escape of `c`. -/
theorem unescape_eq_some_iff {c d : Char} : unescape d = some c ↔ escape c = some d := by
  constructor
  · intro h
    unfold unescape at h
    repeat' split at h
    all_goals simp_all [escape]
    all_goals subst h; decide
  · intro h
    unfold escape at h
    repeat' split at h
    all_goals simp_all [unescape]
    all_goals subst h; decide

/-- The written form of the characters of a string, without the quotes around them. -/
def escaped (cs : List Char) : List Char :=
  cs.flatMap fun c =>
    match escape c with
    | some d => ['\\', d]
    | none => [c]

/-- The literal of a string: its escaped characters between double quotes. -/
def quoted (s : String) : List Char :=
  '"' :: escaped s.toList ++ ['"']

end SubstModel.Text
