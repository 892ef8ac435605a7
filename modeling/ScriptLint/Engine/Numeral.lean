import ScriptLint.Decimal.Binary64
import ScriptLint.Decimal.Digits

/-!
# ScriptLint.Engine.Numeral

Integers as the script language reads them. A machine word keeps the front digits; every digit that
no longer fits counts as a factor of ten, whatever it is. So a long integer need not become the
number nearest to it.

* `Numeral.split`: the digits that are kept, and how many are left out
* `Numeral.power`: a power of ten as a number
* `Numeral.read`: the number that an integer is read as
-/

namespace ScriptLint.Engine.Numeral

/-- A word up to this takes one digit more. -/
def wordLimit : Nat := 1844674407370955160

/-- What a digit adds to the digits kept and to the count of those left out. -/
def keep (s : Nat × Nat) (c : Char) : Nat × Nat :=
  if s.1 ≤ wordLimit then (s.1 * 10 + (Digits.digit? c).getD 0, s.2) else (s.1, s.2 + 1)

/-- The front of a run of digits, and how many digits follow it. -/
def split (cs : List Char) : Nat × Nat := cs.foldl keep (0, 0)

/-- Powers of ten that come out as the number above the nearest one: the first lies halfway between
two numbers, the second nearly so. -/
def roundedUp : List Nat := [23, 210]

/-- A power of ten as a number. -/
def power (k : Nat) : Binary64 :=
  match Binary64.ofDecimal false 1 k with
  | .finite negative m e => .finite negative (if roundedUp.contains k then m + 1 else m) e
  | x => x

/-- The number that an integer is read as: what is kept and the factor are rounded, and so is their
product. -/
def read (i : Int) : Binary64 :=
  let (front, left) := split (Digits.decimal i.natAbs)
  (Binary64.ofRatio (i < 0) front 1).scaled (power left)

end ScriptLint.Engine.Numeral
