/-!
# ScriptLint.Decimal.Binary64

Binary floating-point numbers of 64 bits as exact values, and rounding to them.

* `Binary64`: a sign, a mantissa and a power of two, or one of the two special kinds
* `ofRatio`, `ofDecimal`, `ofInt`: the nearest number, ties to the even mantissa
* `scaled`: the product with a factor, rounded
* `toInt?`: the integer a number is equal to
-/

namespace ScriptLint

/-- A number `mantissa * 2 ^ exponent` with its sign, an infinity, or not a number. -/
inductive Binary64 where
  | nan
  | infinite (negative : Bool)
  | finite (negative : Bool) (mantissa : Nat) (exponent : Int)
  deriving DecidableEq, Repr

namespace Binary64

def precision : Nat := 53

/-- Least and greatest power of two of a mantissa. -/
def minExponent : Int := -1074
def maxExponent : Int := 971

def zero (negative : Bool) : Binary64 := .finite negative 0 minExponent

def twoTo (k : Int) : Nat := Nat.pow 2 k.toNat

def tenTo (k : Int) : Nat := Nat.pow 10 k.toNat

/-- `a / b` to the nearest integer, a tie to the even neighbour. -/
def roundHalfEven (a b : Nat) : Nat :=
  let q := a / b
  let r := a % b
  if 2 * r < b then q else if b < 2 * r then q + 1 else if q % 2 = 0 then q else q + 1

/-- `num * 2 ^ (-e) / den` to the nearest integer. -/
def scaledRound (num den : Nat) (e : Int) : Nat :=
  if 0 ≤ e then roundHalfEven num (den * twoTo e) else roundHalfEven (num * twoTo (-e)) den

/-- Whether `num / den` is at least `2 ^ k`. -/
def atLeastPower (num den : Nat) (k : Int) : Bool :=
  if 0 ≤ k then den * twoTo k ≤ num else den ≤ num * twoTo (-k)

/-- Greatest `k` with `2 ^ k ≤ num / den`, for positive `num` and `den`. -/
def binaryOrder (num den : Nat) : Int :=
  let k : Int := (Nat.log2 num : Int) - (Nat.log2 den : Int)
  if atLeastPower num den k then k else k - 1

/-- The number nearest to `num / den` with the given sign, for positive `den`. -/
def ofRatio (negative : Bool) (num den : Nat) : Binary64 :=
  if num = 0 then zero negative
  else
    let e := max (binaryOrder num den - 52) minExponent
    let m := scaledRound num den e
    let (m, e) := if m = twoTo precision then (twoTo (precision - 1), e + 1) else (m, e)
    if m = 0 then zero negative
    else if maxExponent < e then .infinite negative
    else .finite negative m e

/-- The number nearest to `digits * 10 ^ exponent`. Powers of ten far out of range are settled
without computing them. -/
def ofDecimal (negative : Bool) (digits : Nat) (exponent : Int) : Binary64 :=
  if digits = 0 then zero negative
  else
    let magnitude : Int := exponent + (Nat.log2 digits : Int)
    if 0 ≤ exponent then
      if 400 < exponent then .infinite negative else ofRatio negative (digits * tenTo exponent) 1
    else if magnitude < -400 ∧ exponent + (Nat.log2 digits : Int) / 3 + 1 < -400 then zero negative
    else ofRatio negative digits (tenTo (-exponent))

def ofInt (i : Int) : Binary64 := ofRatio (i < 0) i.natAbs 1

/-- The number nearest to an integer, unless the integer is beyond the greatest number. -/
def ofInt? (i : Int) : Option Binary64 :=
  match ofInt i with
  | .infinite _ => none
  | x => some x

def isFinite : Binary64 → Bool
  | .finite .. => true
  | _ => false

def isZero : Binary64 → Bool
  | .finite _ 0 _ => true
  | _ => false

def ratio (m : Nat) (e : Int) : Nat × Nat :=
  if 0 ≤ e then (m * twoTo e, 1) else (m, twoTo (-e))

/-- The number nearest to the product with a positive factor. -/
def scaled (x factor : Binary64) : Binary64 :=
  match x, factor with
  | .finite negative m e, .finite _ n f =>
    let (num, den) := ratio (m * n) (e + f)
    ofRatio negative num den
  | .finite negative _ _, _ => .infinite negative
  | _, _ => x

def truncate? : Binary64 → Option Int
  | .finite negative m e =>
    let (n, d) := ratio m e
    let q : Int := (n / d : Nat)
    some (if negative then -q else q)
  | _ => none

/-- The integer that the number is equal to. -/
def toInt? : Binary64 → Option Int
  | .finite negative m e =>
    let (n, d) := ratio m e
    if n % d = 0 then
      let q : Int := (n / d : Nat)
      some (if negative then -q else q)
    else none
  | _ => none

/-- Numeric equality: the two zeros are equal, and not a number differs from itself. -/
def sameNumber : Binary64 → Binary64 → Bool
  | .nan, _ => false
  | _, .nan => false
  | x, y => (x.isZero && y.isZero) || x == y

def isInt (x : Binary64) (i : Int) : Bool := x.toInt? == some i

end Binary64

end ScriptLint
