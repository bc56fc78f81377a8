/-
**Binary floating-point numbers of 64 bits, as exact values.**

A finite number is a sign, a mantissa below `2 ^ 53` and an exponent of two from `-1074` to `971`.
`ofRatio` rounds a quotient to the nearest such number, ties to the even mantissa, and `ofDecimal`
reads a decimal that way. `shortest` gives the fewest decimal digits that read back as the number,
and `text` writes them.
-/

import CallGraph.Text.Digit

namespace CallGraph

/-- A binary floating-point number: `mantissa * 2 ^ exponent` with a sign, an infinity, or none. -/
inductive Binary64 where
  | finite (negative : Bool) (mantissa : Nat) (exponent : Int)
  | infinite (negative : Bool)
  | nan
  deriving DecidableEq, Hashable

namespace Binary64

/-- The least exponent of two. -/
def minExponent : Int := -1074

/-- The greatest exponent of two. -/
def maxExponent : Int := 971

/-- The zero of a sign. -/
def zero (negative : Bool) : Binary64 := .finite negative 0 minExponent

/-! ### Reading -/

/-- The quotient rounded to the nearest whole number, ties to the even one. -/
def divNearest (num den : Nat) : Nat :=
  let quotient := num / den
  let twice := 2 * (num % den)
  if twice < den then quotient
  else if den < twice then quotient + 1
  else quotient + quotient % 2

/-- `num / den` as a quotient scaled by `base ^ (-exponent)`. -/
def scaled (base num den : Nat) (exponent : Int) : Nat × Nat :=
  (num * Nat.pow base (-exponent).toNat, den * Nat.pow base exponent.toNat)

/-- The greatest exponent whose power of two is at most `num / den`, for positive `num`, `den`. -/
def binaryMagnitude (num den : Nat) : Int :=
  let guess : Int := (Nat.log2 num : Int) - Nat.log2 den
  let (high, low) := scaled 2 num den guess
  if low ≤ high then guess else guess - 1

/-- The nearest number to `num / den`. -/
def ofRatio (negative : Bool) (num den : Nat) : Binary64 :=
  if num = 0 then
    zero negative
  else
    let ideal := binaryMagnitude num den - 52
    let exponent := if ideal < minExponent then minExponent else ideal
    let (high, low) := scaled 2 num den exponent
    let mantissa := divNearest high low
    let (mantissa, exponent) :=
      if mantissa = Nat.pow 2 53 then (Nat.pow 2 52, exponent + 1) else (mantissa, exponent)
    if maxExponent < exponent then .infinite negative else .finite negative mantissa exponent

/-- The nearest number to `digits * 10 ^ exponent`. Decimals beyond `10 ^ 310` are infinite and
those below `10 ^ -330` are zero, which needs no power of ten to be computed. -/
def ofDecimal (negative : Bool) (digits : Nat) (exponent : Int) : Binary64 :=
  let magnitude := exponent + (Nat.toDigits 10 digits).length
  if digits = 0 ∨ magnitude < -330 then zero negative
  else if 310 < magnitude then .infinite negative
  else
    let (high, low) := scaled 10 digits 1 (-exponent)
    ofRatio negative high low

/-- The nearest number to a whole number. -/
def ofInt (n : Int) : Binary64 := ofRatio (decide (n < 0)) n.natAbs 1

/-! ### Values -/

/-- The exact value of a finite number. -/
def toRat? : Binary64 → Option Rat
  | .finite negative mantissa exponent =>
    let (high, low) := scaled 2 mantissa 1 (-exponent)
    let size := mkRat high low
    some (if negative then -size else size)
  | _ => none

/-- The whole number that a number without fraction is. -/
def toInt? (x : Binary64) : Option Int :=
  x.toRat?.bind fun value => if value.den = 1 then some value.num else none

/-- Whether the number is known to be zero or less. -/
def isNonpositive : Binary64 → Bool
  | .finite negative mantissa _ => negative || mantissa = 0
  | .infinite negative => negative
  | .nan => false

/-- Whether the number is at most `value`. An infinity is beyond every value and `nan` compares
with none. -/
def le (x : Binary64) (value : Rat) : Bool :=
  match x.toRat? with
  | some size => size ≤ value
  | none => x = .infinite true

/-! ### Writing -/

/-- The greatest exponent whose power of ten is at most `num / den`, for positive `num`, `den`. -/
def decimalMagnitude (num den : Nat) : Int :=
  let guess : Int := (Nat.toDigits 10 num).length - (Nat.toDigits 10 den).length
  let (high, low) := scaled 10 num den guess
  if low ≤ high then guess else guess - 1

/-- The decimals with `count` digits on both sides of `num / den`, the nearer one first and the
even one of two that are equally near. -/
def neighbours (num den count : Nat) : List (Nat × Int) :=
  let exponent := decimalMagnitude num den - (count - 1 : Int)
  let (high, low) := scaled 10 num den exponent
  let below := (high / low, exponent)
  let above := (high / low + 1, exponent)
  if divNearest high low = high / low then [below, above] else [above, below]

/-- A decimal without zeros at its end. -/
def dropZeros : Nat → Nat × Int → Nat × Int
  | 0, decimal => decimal
  | fuel + 1, (digits, exponent) =>
    if digits ≠ 0 ∧ digits % 10 = 0 then dropZeros fuel (digits / 10, exponent + 1)
    else (digits, exponent)

/-- The fewest digits that read back as `mantissa * 2 ^ exponent`, as a whole number and an exponent
of ten; of two decimals of that length, the nearer. Seventeen digits always read back. -/
def shortest (mantissa : Nat) (exponent : Int) : Nat × Int :=
  let (num, den) := scaled 2 mantissa 1 (-exponent)
  let found := (List.range 17).findSome? fun count =>
    (neighbours num den (count + 1)).find? fun decimal =>
      ofDecimal false decimal.1 decimal.2 = .finite false mantissa exponent
  dropZeros 18 (found.getD (0, 0))

/-- Digits with a point after the first `whole` of them; zeros fill both sides, and a point is
always followed by a digit. -/
def positional (digits : String) (whole : Int) : String :=
  let count : Int := digits.length
  if whole ≤ 0 then
    "0." ++ "".pushn '0' (-whole).toNat ++ digits
  else if count ≤ whole then
    digits ++ "".pushn '0' (whole - count).toNat ++ ".0"
  else
    String.ofList (digits.toList.take whole.toNat) ++ "." ++
      String.ofList (digits.toList.drop whole.toNat)

/-- Digits with a point after the first of them, and a signed exponent of at least two digits. -/
def scientific (digits : String) (exponent : Int) : String :=
  let lead := String.ofList (digits.toList.take 1)
  let more := String.ofList (digits.toList.drop 1)
  let size := Text.decimalText exponent.natAbs
  lead ++ (if more.isEmpty then "" else "." ++ more) ++ "e" ++
    (if exponent < 0 then "-" else "+") ++ (if size.length < 2 then "0" ++ size else size)

/-- The number in its shortest form, positional from `10 ^ -4` to below `10 ^ 16`. -/
def text : Binary64 → String
  | .nan => "nan"
  | .infinite negative => if negative then "-inf" else "inf"
  | .finite negative mantissa exponent =>
    let sign := if negative then "-" else ""
    if mantissa = 0 then
      sign ++ "0.0"
    else
      let (digits, scale) := shortest mantissa exponent
      let shown := Text.decimalText digits
      let magnitude := scale + shown.length - 1
      sign ++
        if -4 ≤ magnitude ∧ magnitude < 16 then positional shown (magnitude + 1)
        else scientific shown magnitude

end Binary64

end CallGraph
