/-!
# Fresh names — generated names apart from written ones

A generated name is a stem, the mark `#` and a number.  No symbol holds that mark, so a generated name never meets
a written one, and no number is given twice.

* `stem` — a name up to its first `#`, so that a name that is generated anew keeps its written part;
* `freshName` — the name with a given number;
* `freshNames` — names for a list of binders, numbered on from those handed out before.
-/

namespace SubstModel

/-- The part of a name in front of its first `#`. -/
def stem (base : String) : List Char :=
  base.toList.takeWhile (· != '#')

/-- The generated name with the number `n` and the stem of `base`. -/
def freshName (n : Nat) (base : String) : String :=
  String.ofList (stem base ++ '#' :: Nat.toDigits 10 n)

/-- Generated names for the given binders, when `issued` names have been handed out before. -/
def freshNames (issued : Nat) : List String → List String
  | [] => []
  | x :: xs => freshName (issued + 1) x :: freshNames (issued + 1) xs

@[simp] theorem length_freshNames (issued : Nat) (xs : List String) :
    (freshNames issued xs).length = xs.length := by
  induction xs generalizing issued with
  | nil => rfl
  | cons x xs ih => simp [freshNames, ih]

end SubstModel
