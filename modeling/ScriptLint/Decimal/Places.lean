import ScriptLint.Decimal.Shortest

/-!
# ScriptLint.Decimal.Places

Numbers with a given count of decimal digits. Rounding is decided on the exact value; a tie goes to
the even digit.

* `fixed`: a given number of digits after the point
* `scientific`: one digit before the point and an exponent
* `general`: a given number of digits in all, in the shorter of the two ways
-/

namespace ScriptLint.Places

/-- A point after the first `whole` digits. Without digits after it the point is left out, unless
it is wanted. -/
def withPoint (keepPoint : Bool) (whole : Nat) (ds : List Char) : List Char :=
  match ds.drop whole with
  | [] => if keepPoint then ds ++ ['.'] else ds
  | rest => ds.take whole ++ '.' :: rest

/-- `num / den` with `places` digits after the point. -/
def fixed (keepPoint : Bool) (num den places : Nat) : List Char :=
  let ds := Digits.padLeft '0' (places + 1)
    (Digits.decimal (Binary64.roundHalfEven (num * Binary64.tenTo places) den))
  withPoint keepPoint (ds.length - places) ds

/-- `num / den / 10 ^ k` to the nearest integer. -/
def gridRound (num den : Nat) (k : Int) : Nat :=
  if 0 ≤ k then Binary64.roundHalfEven num (den * Binary64.tenTo k)
  else Binary64.roundHalfEven (num * Binary64.tenTo (-k)) den

/-- The exponent of the first digit of a positive `num / den`. -/
def firstExponent (num den : Nat) : Int :=
  let start : Int := ((Nat.log2 num : Int) - (Nat.log2 den : Int)) * 3 / 10 - 2
  Binary64.decimalOrder num den 700 start - 1

/-- The first `count` digits of `num / den`, rounded, and the exponent of the first. -/
def leading (num den count : Nat) : List Char × Int :=
  if num = 0 then (List.replicate count '0', 0)
  else
    let e := firstExponent num den
    let ds := Digits.decimal (gridRound num den (e - count + 1))
    if ds.length = count then (ds, e) else (ds.take count, e + 1)

def exponentText (e : Int) : List Char :=
  'e' :: (if e < 0 then '-' else '+') :: Digits.padLeft '0' 2 (Digits.decimal e.natAbs)

/-- `num / den` with one digit before the point and `places` after it. -/
def scientific (keepPoint : Bool) (num den places : Nat) : List Char :=
  let (ds, e) := leading num den (places + 1)
  withPoint keepPoint 1 ds ++ exponentText e

/-- Digits after the point without the zeros at their end. -/
def dropZeros (whole : Nat) (ds : List Char) : List Char :=
  ds.take whole ++ ((ds.drop whole).reverse.dropWhile (· == '0')).reverse

/-- `num / den` with `count` digits in all, positional while the exponent is small. -/
def general (keepZeros : Bool) (num den count : Nat) : List Char :=
  let count := max count 1
  let (ds, e) := leading num den count
  if -4 ≤ e ∧ e < count then
    let padded := List.replicate (-e).toNat '0' ++ ds
    let whole := (max e 0).toNat + 1
    withPoint keepZeros whole (if keepZeros then padded else dropZeros whole padded)
  else
    withPoint keepZeros 1 (if keepZeros then ds else dropZeros 1 ds) ++ exponentText e

end ScriptLint.Places
