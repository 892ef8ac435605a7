import ScriptLint.Decimal.Binary64
import ScriptLint.Decimal.Digits

/-!
# ScriptLint.Decimal.Shortest

The fewest decimal digits that read back as a given number, and the two ways they are laid out.

* `shortest`: digits and a power of ten
* `Layout`: where positional writing ends and how the rest is spelled
* `plain`, `script`: the layouts of values and of the script language
-/

namespace ScriptLint

namespace Binary64

structure Scaled where
  digits : Nat
  exponent : Int
  deriving DecidableEq, Repr

def belowTen (num den : Nat) (k : Int) : Bool :=
  if 0 ≤ k then num < den * tenTo k else num * tenTo (-k) < den

/-- Least `k ≥ start` with `num / den < 10 ^ k`, looking `fuel` steps far. -/
def decimalOrder (num den : Nat) : Nat → Int → Int
  | 0, k => k
  | fuel + 1, k => if belowTen num den k then k else decimalOrder num den fuel (k + 1)

/-- The two numbers `a / b` and `c * 10 ^ k` compared: is the first smaller? -/
def ratioLt (a b c : Nat) (k : Int) : Bool :=
  if 0 ≤ k then a < c * tenTo k * b else a * tenTo (-k) < c * b

def ratioGt (a b c : Nat) (k : Int) : Bool :=
  if 0 ≤ k then c * tenTo k * b < a else c * b < a * tenTo (-k)

/-- Ends of the interval that rounds to `m * 2 ^ e`, over the common denominator: four times the
mantissa less or plus half a step, where the step below a power of two is half as long. -/
def interval (m : Nat) (e : Int) : Nat × Nat × Nat :=
  let narrow := m = twoTo (precision - 1) ∧ minExponent < e
  let low := if narrow then 4 * m - 1 else 4 * m - 2
  let high := 4 * m + 2
  if 0 ≤ e then (low * twoTo e, high * twoTo e, 4)
  else (low, high, 4 * twoTo (-e))

/-- Whether `c * 10 ^ k` rounds to `m * 2 ^ e`; the ends belong to even mantissas. -/
def readsBack (m : Nat) (e : Int) (c : Nat) (k : Int) : Bool :=
  let (low, high, den) := interval m e
  if m % 2 = 0 then !ratioGt low den c k && !ratioLt high den c k
  else ratioLt low den c k && ratioGt high den c k

def gridFloor (num den : Nat) (k : Int) : Nat :=
  if 0 ≤ k then num / (den * tenTo k) else num * tenTo (-k) / den

/-- Whether `num / den` is nearer to `(c + 1) * 10 ^ k` than to `c * 10 ^ k`, a tie to the even
one. -/
def upperNearer (num den c : Nat) (k : Int) : Bool :=
  let mid := 2 * c + 1
  if ratioGt (2 * num) den mid k then true
  else if ratioLt (2 * num) den mid k then false
  else c % 2 = 1

/-- The grid of `n` digits: the neighbour of the number that reads back, the nearer of two. With
`strict` only the nearer neighbour counts; below a power of two it may fail to read back although
the other one does. -/
def onGrid (strict : Bool) (m : Nat) (e order : Int) (n : Nat) : Option Scaled :=
  let (num, den) := ratio m e
  let k := order - n
  let c := gridFloor num den k
  let nearer := if upperNearer num den c k then c + 1 else c
  match readsBack m e c k, readsBack m e (c + 1) k with
  | true, true => some ⟨nearer, k⟩
  | true, false => if strict && nearer != c then none else some ⟨c, k⟩
  | false, true => if strict && nearer == c then none else some ⟨c + 1, k⟩
  | false, false => none

/-- A digit more than the grid has can only be a power of ten: one zero is given to the exponent. -/
def Scaled.carried (s : Scaled) : Scaled :=
  if s.digits % 10 = 0 then ⟨s.digits / 10, s.exponent + 1⟩ else s

/-- The first of the grids with `n`, `n + 1`, … digits that has a number which reads back. If none
of them has, the next grid's neighbour above stands for the number. -/
def firstGrid (strict : Bool) (m : Nat) (e order : Int) : Nat → Nat → Scaled
  | 0, n =>
    let (num, den) := ratio m e
    ⟨gridFloor num den (order - n) + 1, order - n⟩
  | fuel + 1, n =>
    match onGrid strict m e order n with
    | some s => s.carried
    | none => firstGrid strict m e order fuel (n + 1)

/-- The fewest digits that read back as the positive number `m * 2 ^ e`. -/
def shortest (strict : Bool) (m : Nat) (e : Int) : Scaled :=
  let (num, den) := ratio m e
  let start : Int := ((Nat.log2 num : Int) - (Nat.log2 den : Int)) * 3 / 10 - 2
  firstGrid strict m e (decimalOrder num den 700 start) 17 1

structure Layout where
  /-- Only the nearest number of a grid may stand for a number. -/
  strict : Bool
  /-- Least and greatest exponent of the first digit that is written positionally. -/
  positionalFrom : Int
  positionalTo : Int
  wholeMark : String
  exponentSize : Nat
  /-- A zero keeps its sign. -/
  signedZero : Bool
  notANumber : String
  infinity : String

/-- Values: `1.0`, `1e+16`, `1e-05`, `-0.0`, `nan`, `inf`. -/
def plain : Layout := ⟨false, -4, 15, ".0", 2, true, "nan", "inf"⟩

/-- The same within documents of options: `NaN` and `Infinity` are spelled out. -/
def document : Layout := { plain with notANumber := "NaN", infinity := "Infinity" }

/-- The script language: `1`, `1e+21`, `1e-7`, `0`, `NaN`, `Infinity`. -/
def script : Layout := ⟨true, -6, 20, "", 1, false, "NaN", "Infinity"⟩

def Layout.spell (l : Layout) (s : Scaled) : List Char :=
  let ds := Digits.decimal s.digits
  let first : Int := s.exponent + (ds.length : Int) - 1
  if l.positionalFrom ≤ first ∧ first ≤ l.positionalTo then
    if 0 ≤ s.exponent then ds ++ List.replicate s.exponent.toNat '0' ++ l.wholeMark.toList
    else if 0 ≤ first then
      ds.take (first.toNat + 1) ++ '.' :: ds.drop (first.toNat + 1)
    else '0' :: '.' :: List.replicate ((-first).toNat - 1) '0' ++ ds
  else
    let mark : List Char := if ds.length = 1 then [] else '.' :: ds.drop 1
    let sign := if first < 0 then '-' else '+'
    ds.take 1 ++ mark ++ 'e' :: sign :: Digits.padLeft '0' l.exponentSize (Digits.decimal first.natAbs)

def Layout.text (l : Layout) : Binary64 → String
  | .nan => l.notANumber
  | .infinite negative => if negative then "-" ++ l.infinity else l.infinity
  | .finite negative 0 _ => (if negative && l.signedZero then "-0" else "0") ++ l.wholeMark
  | .finite negative m e =>
    String.ofList ((if negative then ['-'] else []) ++ l.spell (shortest l.strict m e))

end Binary64

end ScriptLint
