import ScriptLint.Decimal.Binary64
import ScriptLint.Decimal.Digits

/-!
# ScriptLint.Log.Timestamp

The time of a record, given in seconds since the start of 1970.

* `civil`: year, month and day of a day count
* `instant?`: seconds and millionths of a binary number of seconds
* `text?`: date and time in the world's time
-/

namespace ScriptLint.Log

/-- Why a number of seconds is no time. -/
inductive TimeIssue where
  | notANumber
  | infinite
  | yearOutOfRange (year : Int)
  deriving DecidableEq, Repr

namespace Timestamp

/-- Year, month and day of a count of days from 1970. Years are counted from March, so that the
leap day is the last of its year. -/
def civil (days : Int) : Int × Int × Int :=
  let z := days + 719468
  let era := z / 146097
  let dayOfEra := z - era * 146097
  let yearOfEra := (dayOfEra - dayOfEra / 1460 + dayOfEra / 36524 - dayOfEra / 146096) / 365
  let dayOfYear := dayOfEra - (365 * yearOfEra + yearOfEra / 4 - yearOfEra / 100)
  let shifted := (5 * dayOfYear + 2) / 153
  let day := dayOfYear - (153 * shifted + 2) / 5 + 1
  let month := if shifted < 10 then shifted + 3 else shifted - 9
  (yearOfEra + era * 400 + (if month ≤ 2 then 1 else 0), month, day)

/-- The millionths of the fraction `num / den`: the product is rounded to a binary number first and
to an integer then. -/
def micros (num den : Nat) : Nat :=
  match Binary64.ofRatio false (num * 1000000) den with
  | .finite _ m e =>
    let (n, d) := Binary64.ratio m e
    Binary64.roundHalfEven n d
  | _ => 0

/-- Whole seconds and millionths, with the millionths never negative. -/
def carried (seconds micros : Int) : Int × Int :=
  if 1000000 ≤ micros then (seconds + 1, micros - 1000000)
  else if micros < 0 then (seconds - 1, micros + 1000000)
  else (seconds, micros)

def instant? : Binary64 → Except TimeIssue (Int × Int)
  | .nan => .error .notANumber
  | .infinite _ => .error .infinite
  | .finite negative m e =>
    let (n, d) := Binary64.ratio m e
    let sign : Int := if negative then -1 else 1
    .ok (carried (sign * (n / d : Nat)) (sign * (micros (n % d) d : Nat)))

def digits (size : Nat) (i : Int) : String :=
  String.ofList (Digits.padLeft '0' size (Digits.decimal i.natAbs))

def textOf (seconds micros : Int) : Except TimeIssue String :=
  let (year, month, day) := civil (seconds / 86400)
  let second := seconds % 86400
  if year < 1 ∨ 9999 < year then .error (.yearOutOfRange year)
  else
    .ok (digits 4 year ++ "-" ++ digits 2 month ++ "-" ++ digits 2 day ++ "T"
      ++ digits 2 (second / 3600) ++ ":" ++ digits 2 (second / 60 % 60) ++ ":"
      ++ digits 2 (second % 60) ++ (if micros = 0 then "" else "." ++ digits 6 micros) ++ "+00:00")

def text? (created : Binary64) : Except TimeIssue String :=
  match instant? created with
  | .error e => .error e
  | .ok (seconds, micros) => textOf seconds micros

end Timestamp

end ScriptLint.Log
