import ScriptLint.Decimal.Digits

/-!
# ScriptLint.Text.Utf8

Bytes and characters.

* `decode`: the characters of bytes, or why there are none
* `encode`: the bytes of characters
-/

namespace ScriptLint.Text.Utf8

inductive Reason where
  | startByte | continuationByte | endOfData
  deriving DecidableEq, Repr

def Reason.text : Reason → String
  | .startByte => "invalid start byte"
  | .continuationByte => "invalid continuation byte"
  | .endOfData => "unexpected end of data"

/-- A reason with the bytes it is about: the first of them, where they start and how many they
are. -/
structure Flaw where
  reason : Reason
  byte : UInt8
  start : Nat
  count : Nat
  deriving DecidableEq, Repr

def Flaw.text (f : Flaw) : String :=
  let number (n : Nat) : String := String.ofList (Digits.decimal n)
  let what :=
    if f.count = 1 then
      "byte 0x" ++ String.ofList (Digits.hex 2 f.byte.toNat) ++ " in position " ++ number f.start
    else
      "bytes in position " ++ number f.start ++ "-" ++ number (f.start + f.count - 1)
  "'utf-8' codec can't decode " ++ what ++ ": " ++ f.reason.text

/-- Length of the sequence that a lead byte opens. -/
def sequenceLength (b : Nat) : Nat :=
  if b < 0x80 then 1
  else if 0xC2 ≤ b ∧ b ≤ 0xDF then 2
  else if 0xE0 ≤ b ∧ b ≤ 0xEF then 3
  else if 0xF0 ≤ b ∧ b ≤ 0xF4 then 4
  else 0

/-- Whether `b` may follow the lead byte: no long forms, no surrogates, nothing beyond the last
code point. -/
def secondByteOk (lead b : Nat) : Bool :=
  let low := if lead = 0xE0 then 0xA0 else if lead = 0xF0 then 0x90 else 0x80
  let high := if lead = 0xED then 0x9F else if lead = 0xF4 then 0x8F else 0xBF
  low ≤ b && b ≤ high

def continuation (b : Nat) : Bool := 0x80 ≤ b && b ≤ 0xBF

/-- The first sequence of non-empty bytes, and the bytes after it; or a reason and the number of
bytes it is about. -/
def decodeOne (lead : Nat) (rest : List UInt8) : Except (Reason × Nat) (Char × List UInt8) :=
  match sequenceLength lead with
  | 1 => .ok (Char.ofNat lead, rest)
  | 2 =>
    match rest with
    | b :: rest' =>
      if continuation b.toNat then .ok (Char.ofNat ((lead - 0xC0) * 64 + (b.toNat - 0x80)), rest')
      else .error (.continuationByte, 1)
    | [] => .error (.endOfData, rest.length + 1)
  | 3 =>
    match rest with
    | [] => .error (.endOfData, rest.length + 1)
    | b :: rest₁ =>
      if secondByteOk lead b.toNat then
        match rest₁ with
        | [] => .error (.endOfData, rest.length + 1)
        | c :: rest₂ =>
          if continuation c.toNat then
            .ok (Char.ofNat (((lead - 0xE0) * 64 + (b.toNat - 0x80)) * 64 + (c.toNat - 0x80)), rest₂)
          else .error (.continuationByte, 2)
      else .error (.continuationByte, 1)
  | 4 =>
    match rest with
    | [] => .error (.endOfData, rest.length + 1)
    | b :: rest₁ =>
      if secondByteOk lead b.toNat then
        match rest₁ with
        | [] => .error (.endOfData, rest.length + 1)
        | c :: rest₂ =>
          if continuation c.toNat then
            match rest₂ with
            | [] => .error (.endOfData, rest.length + 1)
            | d :: rest₃ =>
              if continuation d.toNat then
                .ok (Char.ofNat ((((lead - 0xF0) * 64 + (b.toNat - 0x80)) * 64
                  + (c.toNat - 0x80)) * 64 + (d.toNat - 0x80)), rest₃)
              else .error (.continuationByte, 3)
          else .error (.continuationByte, 2)
      else .error (.continuationByte, 1)
  | _ => .error (.startByte, 1)

/-- The characters of bytes from position `pos` on; `fuel` bounds their number. -/
def decodeAll : Nat → Nat → List UInt8 → Except Flaw (List Char)
  | 0, _, _ => .ok []
  | _, _, [] => .ok []
  | fuel + 1, pos, b :: rest =>
    match decodeOne b.toNat rest with
    | .error (reason, count) => .error ⟨reason, b, pos, count⟩
    | .ok (c, rest') =>
      match decodeAll fuel (pos + (rest.length + 1 - rest'.length)) rest' with
      | .ok cs => .ok (c :: cs)
      | .error e => .error e

def decode (bytes : List UInt8) : Except Flaw (List Char) := decodeAll bytes.length 0 bytes

def encodeChar (c : Char) : List UInt8 :=
  let n := c.toNat
  if n < 0x80 then [n.toUInt8]
  else if n < 0x800 then [(0xC0 + n / 64).toUInt8, (0x80 + n % 64).toUInt8]
  else if n < 0x10000 then
    [(0xE0 + n / 4096).toUInt8, (0x80 + n / 64 % 64).toUInt8, (0x80 + n % 64).toUInt8]
  else
    [(0xF0 + n / 262144).toUInt8, (0x80 + n / 4096 % 64).toUInt8, (0x80 + n / 64 % 64).toUInt8,
      (0x80 + n % 64).toUInt8]

def encode (cs : List Char) : List UInt8 := cs.flatMap encodeChar

end ScriptLint.Text.Utf8
