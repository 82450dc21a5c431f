/-!
# Keywords — the symbols that head special forms

A keyword can be neither a variable nor a bound name.

* `Keyword` — the seven keywords, the last of which marks a whole program;
* `Keyword.ofName?` — the keyword that a symbol is (`ofName?_eq_some_iff`).
-/

namespace SubstModel

/-- The symbols that head special forms. -/
inductive Keyword where
  | quote | cond | lambda | letIn | classDef | define | program
  deriving DecidableEq, Repr

namespace Keyword

/-- The symbol of the keyword. -/
def name : Keyword → String
  | quote => "quote"
  | cond => "if"
  | lambda => "lambda"
  | letIn => "let"
  | classDef => "class"
  | define => "define"
  | program => "L3"

/-- All keywords. -/
def all : List Keyword := [quote, cond, lambda, letIn, classDef, define, program]

/-- The keyword that a symbol is. -/
def ofName? (s : String) : Option Keyword :=
  all.find? fun k => k.name == s

theorem mem_all (k : Keyword) : k ∈ all := by
  cases k <;> decide

theorem name_injective {k l : Keyword} (h : k.name = l.name) : k = l := by
  revert h
  cases k <;> cases l <;> decide

/-- **A symbol is a keyword exactly when it is the name of that keyword.** -/
theorem ofName?_eq_some_iff {s : String} {k : Keyword} : ofName? s = some k ↔ k.name = s := by
  constructor
  · intro h
    simpa using List.find?_some h
  · rintro rfl
    cases h : ofName? k.name with
    | none =>
      have := List.find?_eq_none.1 h k (mem_all k)
      simp at this
    | some l =>
      have hl : l.name = k.name := by simpa using List.find?_some h
      rw [name_injective hl]

end Keyword

end SubstModel
