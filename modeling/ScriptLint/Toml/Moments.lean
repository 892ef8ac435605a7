import ScriptLint.Toml.Basic

/-!
# ScriptLint.Toml.Moments

Dates and times in a document.

* `Date`, `Clock`, `Offset`: parts of a moment
* `Date.onCalendar`: whether the calendar has the day
* `readMoment?`: the moment at the start of a text
-/

namespace ScriptLint.Toml

structure Date where
  year : Nat
  month : Nat
  day : Nat
  deriving DecidableEq, Repr

namespace Date

def isLeap (year : Nat) : Bool := year % 4 == 0 && (year % 100 != 0 || year % 400 == 0)

def daysIn (year month : Nat) : Nat :=
  if month = 2 then (if isLeap year then 29 else 28)
  else if month = 4 ∨ month = 6 ∨ month = 9 ∨ month = 11 then 30
  else 31

/-- The calendar begins with the year one. -/
def onCalendar (d : Date) : Bool := 1 ≤ d.year && d.day ≤ daysIn d.year d.month

end Date

structure Clock where
  hour : Nat
  minute : Nat
  second : Nat
  micro : Nat
  deriving DecidableEq, Repr

/-- The distance of a local time from the world's, in minutes. -/
abbrev Offset := Int

/-- `size` digits in front of a text, as a number. -/
def fixedDigits? (size : Nat) (cs : List Char) : Option (Nat × List Char) :=
  let ds := cs.take size
  if ds.length = size ∧ ds.all Char.isDigit then some (Digits.value 10 ds, cs.drop size) else none

def twoDigits? (low high : Nat) (cs : List Char) : Option (Nat × List Char) :=
  match fixedDigits? 2 cs with
  | some (n, rest) => if low ≤ n ∧ n ≤ high then some (n, rest) else none
  | none => none

def after? (c : Char) : List Char → Option (List Char)
  | [] => none
  | d :: rest => if d = c then some rest else none

def readDate? (cs : List Char) : Option (Date × List Char) := do
  let (year, cs) ← fixedDigits? 4 cs
  let cs ← after? '-' cs
  let (month, cs) ← twoDigits? 1 12 cs
  let cs ← after? '-' cs
  let (day, cs) ← twoDigits? 1 31 cs
  some (⟨year, month, day⟩, cs)

/-- A fraction of a second in millionths; further digits are dropped. -/
def readMicros (cs : List Char) : Nat × List Char :=
  match cs with
  | '.' :: rest =>
    match rest.takeWhile Char.isDigit with
    | [] => (0, cs)
    | ds => (Digits.value 10 (Digits.padRight '0' 6 (ds.take 6)), rest.dropWhile Char.isDigit)
  | _ => (0, cs)

/-- Hour, minute and second with colons between them, and perhaps a fraction. -/
def readClock? (cs : List Char) : Option (Clock × List Char) := do
  let (hour, cs) ← twoDigits? 0 23 cs
  let cs ← after? ':' cs
  let (minute, cs) ← twoDigits? 0 59 cs
  let cs ← after? ':' cs
  let (second, cs) ← twoDigits? 0 59 cs
  let (micro, cs) := readMicros cs
  some (⟨hour, minute, second, micro⟩, cs)

def readSignedOffset? (sign : Int) (cs : List Char) : Option (Offset × List Char) := do
  let (hour, cs) ← twoDigits? 0 23 cs
  let cs ← after? ':' cs
  let (minute, cs) ← twoDigits? 0 59 cs
  some (sign * (hour * 60 + minute : Nat), cs)

def readOffset? : List Char → Option (Offset × List Char)
  | [] => none
  | c :: cs =>
    if c = 'Z' ∨ c = 'z' then some (0, cs)
    else if c = '+' then readSignedOffset? 1 cs
    else if c = '-' then readSignedOffset? (-1) cs
    else none

/-- A time of day after a date. -/
def readClockAfterDate? : List Char → Option (Clock × List Char)
  | [] => none
  | c :: cs => if c = 'T' ∨ c = 't' ∨ c = ' ' then readClock? cs else none

def numberTexts (ns : List Nat) : String := String.intercalate ", " (ns.map Digits.ofNatText)

/-- The parts of a time that are shown: a last part that is zero is left out. -/
def Clock.parts (c : Clock) : List Nat :=
  if c.micro != 0 then [c.hour, c.minute, c.second, c.micro]
  else if c.second != 0 then [c.hour, c.minute, c.second]
  else [c.hour, c.minute]

/-- How an offset is shown: as days before and seconds after. -/
def offsetText (o : Offset) : String :=
  if o = 0 then "datetime.timezone.utc"
  else if 0 < o then
    "datetime.timezone(datetime.timedelta(seconds=" ++ String.ofList (Digits.ofInt (o * 60)) ++ "))"
  else
    "datetime.timezone(datetime.timedelta(days=-1, seconds="
      ++ String.ofList (Digits.ofInt (86400 + o * 60)) ++ "))"

def dateMoment (d : Date) : Moment :=
  ⟨"date", "datetime.date(" ++ numberTexts [d.year, d.month, d.day] ++ ")"⟩

def timeMoment (c : Clock) : Moment := ⟨"time", "datetime.time(" ++ numberTexts c.parts ++ ")"⟩

def dateTimeMoment (d : Date) (c : Clock) (o : Option Offset) : Moment :=
  ⟨"datetime", "datetime.datetime(" ++ numberTexts ([d.year, d.month, d.day] ++ c.parts)
    ++ (match o with | some o => ", tzinfo=" ++ offsetText o | none => "") ++ ")"⟩

/-- What follows a date: its moment and the rest. -/
def readAfterDate (d : Date) (cs : List Char) : Moment × List Char :=
  match readClockAfterDate? cs with
  | none => (dateMoment d, cs)
  | some (c, rest) =>
    match readOffset? rest with
    | some (o, rest') => (dateTimeMoment d c (some o), rest')
    | none => (dateTimeMoment d c none, rest)

/-- The moment at the start of a text, if there is one; its day may be missing from the calendar. -/
def readMoment? (cs : List Char) : Option (Result Moment) :=
  match readDate? cs with
  | some (d, rest) => some (if d.onCalendar then .ok (readAfterDate d rest) else fail .date cs)
  | none =>
    match readClock? cs with
    | some (c, rest) => some (.ok (timeMoment c, rest))
    | none => none

end ScriptLint.Toml
