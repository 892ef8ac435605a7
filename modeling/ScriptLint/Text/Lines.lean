/-!
# ScriptLint.Text.Lines

Line structure of a text. A line ends at CR LF, LF or CR.

* `lines`: the segments between line ends, always at least one
* `unifyNewlines`: the text with every line end written as LF
* `joinLines`: segments joined by LF
* `untilNul`: the text up to its first NUL character
* `place`: line and column of a place in the text
-/

namespace ScriptLint.Text

/-- Puts a character in front of the first segment. -/
def consFirst (c : Char) : List (List Char) → List (List Char)
  | [] => [[c]]
  | l :: ls => (c :: l) :: ls

def lines : List Char → List (List Char)
  | [] => [[]]
  | '\r' :: '\n' :: cs => [] :: lines cs
  | c :: cs => if c = '\n' ∨ c = '\r' then [] :: lines cs else consFirst c (lines cs)

/-- Every line end written as LF. -/
def unifyNewlines : List Char → List Char
  | [] => []
  | '\r' :: '\n' :: cs => '\n' :: unifyNewlines cs
  | c :: cs => (if c = '\r' then '\n' else c) :: unifyNewlines cs

def joinLines : List (List Char) → List Char
  | [] => []
  | [l] => l
  | l :: ls => l ++ '\n' :: joinLines ls

/-- The interpreter sees a text only up to its first NUL character. -/
def untilNul (cs : List Char) : List Char := cs.takeWhile (· != '\x00')

/-- Line and column, from one, of the place `offset` characters into a text. -/
def place (offset : Nat) (cs : List Char) : Nat × Nat :=
  let before := cs.take offset
  (before.count '\n' + 1, (before.reverse.takeWhile (· != '\n')).length + 1)

theorem consFirst_ne_nil (c : Char) (ls : List (List Char)) : consFirst c ls ≠ [] := by
  cases ls <;> simp [consFirst]

theorem lines_ne_nil (cs : List Char) : lines cs ≠ [] := by
  fun_induction lines cs with
  | case1 => simp
  | case2 => simp
  | case3 => simp
  | case4 => exact consFirst_ne_nil _ _

end ScriptLint.Text
