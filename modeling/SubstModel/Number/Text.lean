import SubstModel.Number.Shortest

/-!
# Numbers as text — how a number is written and which words are numbers

The numbers of the language are binary floating-point numbers of 64 bits.

* `written` — the shortest decimal that reads back, always positional; the zeros are `0` and `-0`, and the
  values that are no numbers at all are `inf`, `-inf` and `NaN`;
* `ofDecimal?` — the words `[+-]?digits(.digits*)?`, rounded to the nearest number;
* `ofHexadecimal?` — the words `#x` or `#X` followed by hexadecimal digits, as long as they fit 63 bits;
* `ofWord?` — either of the two.
-/

namespace SubstModel.Number

/-! ### Writing -/

/-- The magnitude of a number, apart from its sign. -/
inductive Magnitude where
  | zero
  | finite (b : Binary)
  | infinite
  | undefined
  deriving DecidableEq, Repr

/-- The magnitude packed in the low 63 bits: eleven bits of biased exponent and 52 bits of fraction. -/
def Magnitude.ofBits (bits : Nat) : Magnitude :=
  let biased : Nat := bits / Nat.pow 2 52 % Nat.pow 2 11
  let fraction := bits % Nat.pow 2 52
  if biased = 0 then
    if fraction = 0 then .zero else .finite ⟨fraction, -1074, false⟩
  else if biased = 2047 then
    if fraction = 0 then .infinite else .undefined
  else
    .finite ⟨Nat.pow 2 52 + fraction, (biased : Int) - 1075, fraction == 0 && biased != 1⟩

/-- The magnitude of a number. -/
def magnitude (x : Float) : Magnitude :=
  Magnitude.ofBits x.toBits.toNat

/-- The sign bit of a number is set. -/
def isNegative (x : Float) : Bool :=
  x.toBits.toNat / Nat.pow 2 63 % 2 == 1

/-- The sign in front of the digits. -/
def signed (negative : Bool) (cs : List Char) : List Char :=
  if negative then '-' :: cs else cs

/-- The written form of a number. -/
def written (x : Float) : List Char :=
  match magnitude x with
  | .zero => signed (isNegative x) ['0']
  | .finite b => signed (isNegative x) b.shortest.written
  | .infinite => signed (isNegative x) ['i', 'n', 'f']
  | .undefined => ['N', 'a', 'N']

/-- The text of a number. -/
def text (x : Float) : String :=
  String.ofList (written x)

/-! ### Reading -/

/-- The number nearest to a decimal with the given digits before and after the point. -/
def ofDigits (whole fraction : List Char) : Float :=
  Float.ofScientific (Nat.ofDigitChars 10 (whole ++ fraction) 0) true fraction.length

/-- The number of an unsigned decimal word: one digit or more, then perhaps a point and further digits. -/
def ofUnsigned? (cs : List Char) : Option Float :=
  let whole := cs.takeWhile Char.isDigit
  if whole.isEmpty then none
  else
    match cs.dropWhile Char.isDigit with
    | [] => some (ofDigits whole [])
    | '.' :: fraction => if fraction.all Char.isDigit then some (ofDigits whole fraction) else none
    | _ => none

/-- The number of a decimal word, with or without a sign. -/
def ofDecimal? : List Char → Option Float
  | '+' :: cs => ofUnsigned? cs
  | '-' :: cs => (ofUnsigned? cs).map (- ·)
  | cs => ofUnsigned? cs

/-- The value of a hexadecimal digit in either case. -/
def hexDigit? (c : Char) : Option Nat :=
  if '0' ≤ c ∧ c ≤ '9' then some (c.toNat - 48)
  else if 'a' ≤ c ∧ c ≤ 'f' then some (c.toNat - 87)
  else if 'A' ≤ c ∧ c ≤ 'F' then some (c.toNat - 55)
  else none

/-- The value of a row of hexadecimal digits. -/
def hexValue? (cs : List Char) : Option Nat :=
  cs.foldlM (fun n c => (hexDigit? c).map (16 * n + ·)) 0

/-- The number of a hexadecimal word.  A value of 63 bits or fewer is rounded to the nearest number; a larger one
is not accepted. -/
def ofHexadecimal? : List Char → Option Float
  | '#' :: x :: c :: cs =>
    if x = 'x' ∨ x = 'X' then
      match hexValue? (c :: cs) with
      | some n => if n < Nat.pow 2 63 then some (Float.ofNat n) else none
      | none => none
    else none
  | _ => none

/-- The number that a word spells. -/
def ofWord? (cs : List Char) : Option Float :=
  (ofHexadecimal? cs).or (ofDecimal? cs)

end SubstModel.Number
