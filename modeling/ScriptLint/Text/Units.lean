/-!
# ScriptLint.Text.Units

Columns are counted in UTF-16 code units: a character of the basic plane takes one, every other
character takes two.

* `units`: code units of one character
* `width`: code units of a text
* `blanks`: a run of spaces as wide as a character
-/

namespace ScriptLint.Text

def units (c : Char) : Nat := if c.val < 0x10000 then 1 else 2

def width : List Char → Nat
  | [] => 0
  | c :: cs => units c + width cs

def blanks (c : Char) : List Char := List.replicate (units c) ' '

@[simp] theorem width_nil : width [] = 0 := rfl

@[simp] theorem width_cons (c : Char) (cs : List Char) : width (c :: cs) = units c + width cs := rfl

@[simp] theorem width_append (xs ys : List Char) : width (xs ++ ys) = width xs + width ys := by
  induction xs with
  | nil => simp
  | cons c cs ih => simp [ih, Nat.add_assoc]

end ScriptLint.Text
