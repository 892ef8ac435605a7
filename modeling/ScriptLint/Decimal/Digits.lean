/-!
# ScriptLint.Decimal.Digits

Digits of whole numbers, in ten and in other bases.

* `decimal`: the decimal digits of a natural number
* `ofInt`: an integer with its sign
* `hex`: digits in base sixteen, padded to a width
* `padLeft`: fills up in front
* `limit`: the most digits that are read and written
* `isWritable`: whether an integer is written
-/

namespace ScriptLint.Digits

def digitChar (n : Nat) : Char :=
  if n < 10 then Char.ofNat (48 + n) else Char.ofNat (87 + n)

/-- Digits of `n` in base `b`, most significant first, at most `fuel` of them. -/
def inBase (b : Nat) : Nat → Nat → List Char → List Char
  | 0, _, acc => acc
  | fuel + 1, n, acc =>
    if n < b then digitChar n :: acc else inBase b fuel (n / b) (digitChar (n % b) :: acc)

def decimal (n : Nat) : List Char := inBase 10 (Nat.log2 n + 1) n []

def ofInt (i : Int) : List Char := if i < 0 then '-' :: decimal i.natAbs else decimal i.natAbs

def padLeft (fill : Char) (size : Nat) (cs : List Char) : List Char :=
  List.replicate (size - cs.length) fill ++ cs

def padRight (fill : Char) (size : Nat) (cs : List Char) : List Char :=
  cs ++ List.replicate (size - cs.length) fill

def hex (size n : Nat) : List Char := padLeft '0' size (inBase 16 (Nat.log2 n + 1) n [])

def digit? (c : Char) : Option Nat := if c.isDigit then some (c.toNat - 48) else none

def hexDigit? (c : Char) : Option Nat :=
  let n := c.toNat
  if 48 ≤ n ∧ n ≤ 57 then some (n - 48)
  else if 97 ≤ n ∧ n ≤ 102 then some (n - 87)
  else if 65 ≤ n ∧ n ≤ 70 then some (n - 55)
  else none

/-- Value of a run of ASCII digits in base `b`, characters that are no digits left out. -/
def value (b : Nat) (cs : List Char) : Nat :=
  cs.foldl (fun n c => match hexDigit? c with | some d => n * b + d | none => n) 0

def ofNatText (n : Nat) : String := String.ofList (decimal n)

/-- Decimal digits that an integer may have at most to be read or written. -/
def limit : Nat := 4300

/-- Whether an integer is written. Its sign does not count as a digit. -/
def isWritable (i : Int) : Bool := (decimal i.natAbs).length ≤ limit

/-- The wording for an integer with more digits than that. The digits are counted only when they are
read. -/
def limitText (count : Option Nat) : String :=
  "Exceeds the limit (" ++ ofNatText limit ++ " digits) for integer string conversion"
    ++ (count.elim "" fun n => ": value has " ++ ofNatText n ++ " digits")
    ++ "; use sys.set_int_max_str_digits() to increase the limit"

end ScriptLint.Digits
