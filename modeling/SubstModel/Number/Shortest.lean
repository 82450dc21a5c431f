/-!
# Shortest decimals — the fewest digits that pick out a binary number

A binary floating-point number `m · 2 ^ q` stands for an interval of reals: all that round to it.  The decimal
to be written is the shortest one in that interval, and of several shortest the nearest to the number itself.

* `Binary` — a positive number of the format, with the distance to its lower neighbour;
* `Binary.onGrid?` — the multiple of `10 ^ k` that is written for the number, if its interval holds one;
* `Binary.shortest` — the answer of the coarsest grid that has one;
* `Decimal.written` — positional digits, never an exponent.

All arithmetic is on `Nat`: the interval is measured in quarters of the unit `2 ^ q`, and both sides of a
comparison are brought to a common denominator.
-/

namespace SubstModel.Number

/-- A decimal `digits · 10 ^ exponent`. -/
structure Decimal where
  digits : Nat
  exponent : Int
  deriving DecidableEq, Repr

/-- A positive binary number `mantissa · 2 ^ exponent`.  Its neighbour below is a whole unit `2 ^ exponent` away,
or half a unit where the number is the least of its binade (`halfBelow`). -/
structure Binary where
  mantissa : Nat
  exponent : Int
  halfBelow : Bool
  deriving DecidableEq, Repr

namespace Binary

/-- The numerator and the denominator of a quarter unit divided by the grid step: `2 ^ (q - 2) / 10 ^ k`. -/
def quarterUnit (b : Binary) (k : Int) : Nat × Nat :=
  (Nat.pow 2 (b.exponent - 2).toNat * Nat.pow 10 (-k).toNat, Nat.pow 10 k.toNat * Nat.pow 2 (2 - b.exponent).toNat)

/-- The lower end of the interval that rounds to the number, in quarter units. -/
def low (b : Binary) : Nat :=
  4 * b.mantissa - (if b.halfBelow then 1 else 2)

/-- The upper end of the interval that rounds to the number, in quarter units. -/
def high (b : Binary) : Nat :=
  4 * b.mantissa + 2

/-- The multiple `n` of the grid step lies in the interval.  The ends round to the even neighbour, so they
belong to the interval exactly when the mantissa is even. -/
def holds (b : Binary) (k : Int) (n : Nat) : Bool :=
  let (num, den) := b.quarterUnit k
  if b.mantissa % 2 = 0 then
    b.low * num ≤ n * den && n * den ≤ b.high * num
  else
    b.low * num < n * den && n * den < b.high * num

/-- The multiple of `10 ^ k` that is written for the number: of its two neighbours on the grid the one inside the
interval, of two inside the nearer, and of two equally near the upper. -/
def onGrid? (b : Binary) (k : Int) : Option Nat :=
  let (num, den) := b.quarterUnit k
  let below := 4 * b.mantissa * num / den
  let above := below + 1
  match b.holds k below, b.holds k above with
  | false, false => none
  | true, false => some below
  | false, true => some above
  | true, true =>
    if 2 * (4 * b.mantissa * num - below * den) < den then some below else some above

/-- The first answer on the grids `10 ^ k`, `10 ^ (k - 1)`, … -/
def coarsest (b : Binary) : Nat → Int → Decimal
  | 0, k => ⟨0, k⟩
  | n + 1, k =>
    match b.onGrid? k with
    | some digits => ⟨digits, k⟩
    | none => b.coarsest n (k - 1)

/-- An exponent `k` with `10 ^ k` above the whole interval, at most three too large: `30103 / 100000` exceeds the
decimal logarithm of two by less than `10 ^ (-8)`. -/
def topExponent (b : Binary) : Int :=
  (b.mantissa.log2 + 2 + b.exponent) * 30103 / 100000 + 1

/-- The shortest decimal that rounds to the number.  A mantissa of 53 bits is told apart by 17 digits, so the
search ends within 24 grids. -/
def shortest (b : Binary) : Decimal :=
  b.coarsest 24 b.topExponent

end Binary

/-- The decimal digits of a natural number. -/
def digitChars (n : Nat) : List Char :=
  Nat.toDigits 10 n

/-- The positional digits of a decimal: zeros are appended for a positive exponent, and a point is set for a
negative one, with a zero in front of it if nothing else stands there. -/
def Decimal.written (d : Decimal) : List Char :=
  let ds := digitChars d.digits
  match d.exponent with
  | .ofNat k => ds ++ List.replicate k '0'
  | .negSucc k =>
    let places := k + 1
    let padded := List.replicate (places + 1 - ds.length) '0' ++ ds
    padded.take (padded.length - places) ++ '.' :: padded.drop (padded.length - places)

end SubstModel.Number
