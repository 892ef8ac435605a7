import ScriptLint.Text.Blank

/-!
# ScriptLint.Proofs.Trimming

Texts trimmed of a class of characters: where trimming stops, and what is left.

* `takeWhile_append_stop`, `head?_dropWhile_stop`: characters of the class at the start of a text
* `trimEnd_append`, `trimEnd_behind`: trimming takes what is of the class, and goes no further than
  to a character of another class
* `trimEnd_eq_self`, `trim_eq_self`: texts that have nothing to trim
* `trimEnd_eq_nil_iff`, `trim_eq_nil_iff`: texts of which nothing is left
-/

namespace ScriptLint.Text

variable {p : Char → Bool} {cs : List Char}

section Starts

theorem mem_takeWhile {c : Char} (h : c ∈ cs.takeWhile p) : p c = true :=
  List.all_eq_true.1 List.all_takeWhile c h

/-- The characters of a class at the start of a text, up to one that is not of the class. -/
theorem takeWhile_append_stop {run behind : List Char}
    (hrun : ∀ c ∈ run, p c = true) (hstop : behind.head?.any p = false) :
    (run ++ behind).takeWhile p = run := by
  rw [List.takeWhile_append_of_pos hrun]
  cases behind with
  | nil => exact List.append_nil run
  | cons c behind =>
    have hc : p c = false := hstop
    rw [List.takeWhile_cons_of_neg (by rw [hc]; decide), List.append_nil]

theorem head?_dropWhile_stop (p : Char → Bool) (cs : List Char) :
    (cs.dropWhile p).head?.any p = false := by
  have hstop := List.head?_dropWhile_not p cs
  cases hhead : (cs.dropWhile p).head? with
  | none => rfl
  | some c =>
    rw [hhead] at hstop
    exact hstop

/-- A text starts with some characters of a class, behind which there is none. -/
theorem exists_back (p : Char → Bool) (cs : List Char) :
    ∃ back behind, cs = back ++ behind ∧ (∀ c ∈ back, p c = true) ∧
      behind.head?.any p = false :=
  ⟨cs.takeWhile p, cs.dropWhile p, List.takeWhile_append_dropWhile.symm,
    fun _ hc => mem_takeWhile hc, head?_dropWhile_stop p cs⟩

end Starts

section Ends

theorem trimEnd_append {xs ys : List Char} (h : ∀ c ∈ ys, p c = true) :
    trimEnd p (xs ++ ys) = trimEnd p xs := by
  have hrev : ∀ c ∈ ys.reverse, p c = true := fun c hc => h c (List.mem_reverse.1 hc)
  rw [trimEnd, trimEnd, List.reverse_append, List.dropWhile_append_of_pos hrev]

theorem trimEnd_eq_nil_iff : trimEnd p cs = [] ↔ ∀ c ∈ cs, p c = true := by
  constructor
  · intro h
    obtain ⟨tail, hcs, htail⟩ := trimEnd_append_dropped p cs
    rw [h, List.nil_append] at hcs
    rwa [hcs]
  · intro h
    rw [← List.nil_append cs, trimEnd_append h]
    rfl

theorem getLast?_trimEnd (p : Char → Bool) (cs : List Char) :
    (trimEnd p cs).getLast?.any p = false := by
  rw [trimEnd, List.getLast?_reverse]
  exact head?_dropWhile_stop p cs.reverse

/-- A text ends with some characters of a class, in front of which there is none. -/
theorem exists_front (p : Char → Bool) (cs : List Char) :
    ∃ before front, cs = before ++ front ∧ (∀ c ∈ front, p c = true) ∧
      before.getLast?.any p = false := by
  obtain ⟨front, hsplit, hfront⟩ := trimEnd_append_dropped p cs
  exact ⟨trimEnd p cs, front, hsplit, hfront, getLast?_trimEnd p cs⟩

theorem trimEnd_eq_self (h : cs.getLast?.any p = false) : trimEnd p cs = cs := by
  rw [trimEnd]
  rw [← List.head?_reverse] at h
  cases hrev : cs.reverse with
  | nil => rw [List.reverse_eq_nil_iff.1 hrev]; rfl
  | cons c rest =>
    rw [hrev] at h
    have hc : p c = false := h
    rw [List.dropWhile_cons_of_neg (by rw [hc]; decide), ← hrev, List.reverse_reverse]

/-- Trimming goes no further than to a character of another class. -/
theorem trimEnd_behind {c : Char} (hc : p c = false) (before behind : List Char) :
    trimEnd p (before ++ c :: behind) = before ++ c :: trimEnd p behind := by
  obtain ⟨tail, hbehind, htail⟩ := trimEnd_append_dropped p behind
  have hsplit : before ++ c :: behind = (before ++ c :: trimEnd p behind) ++ tail := by
    rw [List.append_assoc, List.cons_append, ← hbehind]
  rw [hsplit, trimEnd_append htail]
  apply trimEnd_eq_self
  rw [List.getLast?_append, List.getLast?_cons]
  cases hlast : (trimEnd p behind).getLast? with
  | none => exact hc
  | some d =>
    have hd := getLast?_trimEnd p behind
    rw [hlast] at hd
    exact hd

theorem trimEnd_append_trimEnd (p : Char → Bool) (xs ys : List Char) :
    trimEnd p (xs ++ trimEnd p ys) = trimEnd p (xs ++ ys) := by
  obtain ⟨tail, hys, htail⟩ := trimEnd_append_dropped p ys
  have happend : trimEnd p ((xs ++ trimEnd p ys) ++ tail) = trimEnd p (xs ++ trimEnd p ys) :=
    trimEnd_append htail
  rw [List.append_assoc, ← hys] at happend
  exact happend.symm

end Ends

section BothEnds

/-- A text between two characters of other classes has nothing to trim. -/
theorem trim_eq_self {c : Char} {more : List Char} (hc : p c = false)
    (hlast : (c :: more).getLast?.any p = false) : trim p (c :: more) = c :: more := by
  have hstart : trimStart p (c :: more) = c :: more :=
    List.dropWhile_cons_of_neg (by rw [hc]; decide)
  rw [trim, hstart, trimEnd_eq_self hlast]

theorem trim_eq_nil_iff : trim p cs = [] ↔ ∀ c ∈ cs, p c = true := by
  rw [trim, trimStart, trimEnd_eq_nil_iff]
  constructor
  · intro h c hc
    rw [← List.takeWhile_append_dropWhile (p := p) (l := cs), List.mem_append] at hc
    exact hc.elim mem_takeWhile (h c)
  · intro h c hc
    exact h c ((List.dropWhile_sublist p).mem hc)

theorem trim_ne_nil {c : Char} (h : p c = false) : trim p (c :: cs) ≠ [] := by
  intro hnil
  have hc := trim_eq_nil_iff.1 hnil c List.mem_cons_self
  rw [h] at hc
  cases hc

end BothEnds

end ScriptLint.Text
