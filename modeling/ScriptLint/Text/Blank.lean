/-!
# ScriptLint.Text.Blank

Classes of white space, which differ at a few characters, and trimming by any of them.

* `isBlank`: white space and line terminators as a script's patterns see them
* `isWhite`: white space of Unicode, which the spelling of a number may have around it
* `isSpace`: what option names, tokens and choices are trimmed of
* `trim`, `trimStart`, `trimEnd`
-/

namespace ScriptLint.Text

def isCommonSpace (c : Char) : Bool :=
  let n := c.toNat
  (9 ≤ n && n ≤ 13) || n == 0x20 || n == 0xA0 || n == 0x1680 || (0x2000 ≤ n && n ≤ 0x200A)
    || n == 0x2028 || n == 0x2029 || n == 0x202F || n == 0x205F || n == 0x3000

/-- White space or line terminator of the script language: the byte order mark is one, the
information separators and the next-line control are not. -/
def isBlank (c : Char) : Bool := isCommonSpace c || c.toNat == 0xFEFF

def isWhite (c : Char) : Bool := isCommonSpace c || c.toNat == 0x85

/-- The Unicode property White_Space together with the four information separators. -/
def isSpace (c : Char) : Bool := isWhite c || (0x1C ≤ c.toNat && c.toNat ≤ 0x1F)

def trimStart (p : Char → Bool) (cs : List Char) : List Char := cs.dropWhile p

def trimEnd (p : Char → Bool) (cs : List Char) : List Char := (cs.reverse.dropWhile p).reverse

def trim (p : Char → Bool) (cs : List Char) : List Char := trimEnd p (trimStart p cs)

def strip (s : String) : String := String.ofList (trim isSpace s.toList)

/-- Trimming keeps a front part and drops only characters of the class. -/
theorem trimEnd_append_dropped (p : Char → Bool) (cs : List Char) :
    ∃ tail, cs = trimEnd p cs ++ tail ∧ ∀ c ∈ tail, p c = true := by
  refine ⟨(cs.reverse.takeWhile p).reverse, ?_, ?_⟩
  · have h := List.takeWhile_append_dropWhile (p := p) (l := cs.reverse)
    have h' := congrArg List.reverse h
    simp only [List.reverse_append, List.reverse_reverse] at h'
    exact h'.symm
  · intro c hc
    have hc' : c ∈ cs.reverse.takeWhile p := List.mem_reverse.1 hc
    exact List.all_eq_true.1 List.all_takeWhile c hc'

end ScriptLint.Text
