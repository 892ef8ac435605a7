import ScriptLint.Analysis.Mask
import ScriptLint.Analysis.Pattern
import ScriptLint.Proofs.Trimming

/-!
# ScriptLint.Proofs.Columns

Columns stay inside their line. Masking keeps a line's width, except that a backslash at the end of
a line inside a string overruns it by one; the overrun is white space and is trimmed off. A match
lies inside the masked line.

* `run_eq_blank`: the automaton masks as the look-ahead does
* `Lint.width_mask_le`, `Hint.width_mask_le`: a masked line is no wider than the line
* `search_split`, `search_first`: a match, and what lies in front of it
* `isSome_find_iff`: where a match is found at all
* `find_column_le`, `lastColumn_le`: columns of matches
-/

namespace ScriptLint.Analysis

open ScriptLint.Text

section Width

theorem units_pos (c : Char) : 1 ≤ units c := by
  rw [units]
  split <;> omega

theorem eq_nil_of_width {cs : List Char} (h : width cs = 0) : cs = [] := by
  cases cs with
  | nil => rfl
  | cons c cs =>
    have hpos := units_pos c
    rw [width_cons] at h
    omega

theorem width_blanks (c : Char) : width (blanks c) = units c := by
  have h : ∀ k, width (List.replicate k ' ') = k := by
    intro k
    induction k with
    | zero => rfl
    | succ k ih =>
      rw [List.replicate_succ, width_cons, ih, show units ' ' = 1 by decide]
      omega
  exact h (units c)

theorem width_trimEnd_le (p : Char → Bool) (cs : List Char) : width (trimEnd p cs) ≤ width cs := by
  obtain ⟨tail, heq, _⟩ := trimEnd_append_dropped p cs
  have h := congrArg width heq
  rw [width_append] at h
  omega

end Width

section Masks

@[simp] theorem Masked.prepend_code (out : List Char) (m : Masked) :
    (m.prepend out).code = out ++ m.code := rfl

@[simp] theorem Masked.prepend_inComment (out : List Char) (m : Masked) :
    (m.prepend out).inComment = m.inComment := rfl

/-- Masked characters no wider than `k`, but for white space behind them. -/
def Within (code : List Char) (k : Nat) : Prop :=
  ∃ body tail, code = body ++ tail ∧ width body ≤ k ∧ ∀ c ∈ tail, isBlank c = true

theorem Within.prepend {code out : List Char} {k k' : Nat} (h : Within code k)
    (hk : width out + k ≤ k') : Within (out ++ code) k' := by
  obtain ⟨body, tail, rfl, hwidth, htail⟩ := h
  refine ⟨out ++ body, tail, (List.append_assoc _ _ _).symm, ?_, htail⟩
  rw [width_append]
  omega

theorem within_blank {code : List Char} (h : ∀ c ∈ code, isBlank c = true) (k : Nat) :
    Within code k := ⟨[], code, rfl, Nat.zero_le k, h⟩

theorem width_trimmed_le {m : Masked} {k : Nat} (h : Within m.code k) :
    width m.trimmed.code ≤ k := by
  obtain ⟨body, tail, hcode, hwidth, htail⟩ := h
  have htrim : m.trimmed.code = trimEnd isBlank body := by
    rw [Masked.trimmed, hcode, trimEnd_append htail]
  rw [htrim]
  exact Nat.le_trans (width_trimEnd_le isBlank body) hwidth

theorem width_two : width [' ', ' '] = 2 := by decide

theorem width_escaped (c : Char) : width (' ' :: blanks c) = 1 + units c := by
  rw [width_cons, width_blanks, show units ' ' = 1 by decide]

/-- Blanking a line keeps its width, but for white space at its end. -/
theorem Lint.within_blank (z : Zone) (cs : List Char) :
    Within (Lint.blank z cs).code (width cs) := by
  have hstar : units '*' = 1 := by decide
  have hslash : units '/' = 1 := by decide
  have hback : units '\\' = 1 := by decide
  fun_induction Lint.blank z cs with
  | case1 z => exact Analysis.within_blank (by simp) _
  | case2 cs ih =>
    refine ih.prepend ?_
    rw [width_two, width_cons, width_cons, hstar, hslash]
    omega
  | case3 c cs _ ih =>
    refine ih.prepend (Nat.le_of_eq ?_)
    rw [width_blanks, width_cons]
  | case4 q =>
    -- a backslash at the end is masked as two characters; both are trimmed off
    have htwo : ∀ c ∈ List.replicate 2 ' ', isBlank c = true := by
      intro c hc
      rw [List.eq_of_mem_replicate hc]
      rfl
    exact Analysis.within_blank htwo _
  | case5 q c cs ih =>
    refine ih.prepend ?_
    rw [width_escaped, width_cons, width_cons, hback]
    omega
  | case6 q cs _ _ ih =>
    refine ih.prepend ?_
    rw [width_cons, width_cons, width_nil]
    omega
  | case7 q c cs _ _ _ ih =>
    refine ih.prepend (Nat.le_of_eq ?_)
    rw [width_blanks, width_cons]
  | case8 => exact Analysis.within_blank (by simp) _
  | case9 cs ih =>
    refine ih.prepend ?_
    rw [width_two, width_cons, width_cons, hstar, hslash]
    omega
  | case10 c cs _ _ ih =>
    refine ih.prepend ?_
    rw [width_cons, width_cons, width_nil]
    omega

/-- A masked line is no wider than the line. -/
theorem Lint.width_mask_le (inComment : Bool) (line : List Char) :
    width (Lint.mask inComment line).code ≤ width line :=
  width_trimmed_le (Lint.within_blank _ line)

namespace Hint

theorem run_cons (m : Mode) (c : Char) (cs : List Char) :
    run m (c :: cs) = (run (step m c cs.head?).2 cs).prepend (step m c cs.head?).1 := rfl

theorem run_done (cs : List Char) : run .done cs = ⟨[], false⟩ := by
  induction cs with
  | nil => rfl
  | cons c cs ih => rw [run_cons, step, ih]; rfl

theorem step_quoted {q c : Char} (h : c ≠ '\\') (next : Option Char) :
    step (.at (.quoted q)) c next =
      if c = q then ([c], .at .code) else (blanks c, .at (.quoted q)) := by
  unfold step
  exact if_neg h

theorem head?_eq_some {c : Char} {cs : List Char} (h : cs.head? = some c) : ∃ cs', cs = c :: cs' := by
  cases cs with
  | nil => cases h
  | cons d cs => cases h; exact ⟨cs, rfl⟩

/-- The automaton masks a line as the look-ahead does. -/
theorem run_eq_blank (z : Zone) (cs : List Char) : run (.at z) cs = Lint.blank z cs := by
  fun_induction Lint.blank z cs with
  | case1 z => rfl
  | case2 cs ih =>
    rw [run_cons, ← ih]
    rfl
  | case3 c cs hclose ih =>
    have hstep : ¬(c = '*' ∧ cs.head? = some '/') := by
      rintro ⟨rfl, h⟩
      obtain ⟨cs', rfl⟩ := head?_eq_some h
      exact hclose cs' rfl rfl
    rw [run_cons, step, if_neg hstep, ih]
  | case4 q => rfl
  | case5 q c cs ih =>
    rw [run_cons, ← ih]
    rfl
  | case6 q cs hend hback ih =>
    have hne : q ≠ '\\' := by
      rintro rfl
      cases cs with
      | nil => exact hend rfl rfl
      | cons c cs => exact hback c cs rfl rfl
    rw [run_cons, step_quoted hne, if_pos rfl, ih]
  | case7 q c cs hend hback hquote ih =>
    have hne : c ≠ '\\' := by
      rintro rfl
      cases cs with
      | nil => exact hend rfl rfl
      | cons c cs => exact hback c cs rfl rfl
    rw [run_cons, step_quoted hne, if_neg hquote, ih]
  | case8 cs =>
    rw [run_cons]
    exact congrArg (Masked.prepend []) (run_done ('/' :: cs))
  | case9 cs ih =>
    rw [run_cons, ← ih]
    rfl
  | case10 c cs hline hblock ih =>
    have hstep : ¬(c = '/' ∧ cs.head? = some '/') := by
      rintro ⟨rfl, h⟩
      obtain ⟨cs', rfl⟩ := head?_eq_some h
      exact hline cs' rfl rfl
    have hstep' : ¬(c = '/' ∧ cs.head? = some '*') := by
      rintro ⟨rfl, h⟩
      obtain ⟨cs', rfl⟩ := head?_eq_some h
      exact hblock cs' rfl rfl
    rw [run_cons, step, if_neg hstep, if_neg hstep', ih]

theorem mask_eq (inComment : Bool) (line : List Char) :
    mask inComment line = Lint.mask inComment line := by
  rw [mask, Lint.mask, run_eq_blank]

theorem width_mask_le (inComment : Bool) (line : List Char) :
    width (mask inComment line).code ≤ width line := by
  rw [mask_eq]
  exact Lint.width_mask_le inComment line

end Hint

end Masks

section Matches

/-- The character in front of what stands behind `c :: before`. -/
theorem getLast?_cons_or (c : Char) (before : List Char) (prev : Option Char) :
    (c :: before).getLast?.or prev = before.getLast?.or (some c) := by
  rw [List.getLast?_cons]
  cases before.getLast? <;> rfl

/-- A match is made at some place, and its column is that of the place. -/
theorem search_split {α : Type} (p : Matcher α) (cs : List Char) :
    ∀ (prev : Option Char) (col : Nat) {k : Nat} {a : α}, search p prev col cs = some (k, a) →
      ∃ before rest, cs = before ++ rest ∧ k = col + width before ∧
        p (before.getLast?.or prev) rest = some a := by
  induction cs with
  | nil =>
    intro prev col k a h
    rw [search] at h
    obtain ⟨x, hx, heq⟩ := Option.map_eq_some_iff.1 h
    cases heq
    exact ⟨[], [], rfl, rfl, hx⟩
  | cons c cs ih =>
    intro prev col k a h
    rw [search] at h
    split at h
    · rename_i x hx
      cases h
      exact ⟨[], c :: cs, rfl, rfl, hx⟩
    · obtain ⟨before, rest, rfl, rfl, hmatch⟩ := ih (some c) (col + units c) h
      refine ⟨c :: before, rest, rfl, ?_, ?_⟩
      · rw [width_cons]
        omega
      · rw [getLast?_cons_or]
        exact hmatch

/-- No match can be made in front of the one that is found. -/
theorem search_first {α : Type} {p : Matcher α} (cs : List Char) :
    ∀ {prev : Option Char} {col k : Nat} {a : α}, search p prev col cs = some (k, a) →
      ∀ before rest, cs = before ++ rest → (p (before.getLast?.or prev) rest).isSome = true →
        k ≤ col + width before := by
  induction cs with
  | nil =>
    intro prev col k a h before rest _ _
    rw [search] at h
    obtain ⟨x, _, heq⟩ := Option.map_eq_some_iff.1 h
    cases heq
    exact Nat.le_add_right col _
  | cons c cs ih =>
    intro prev col k a h before rest hsplit hmatch
    rw [search] at h
    split at h
    · cases h
      exact Nat.le_add_right col _
    · rename_i hnone
      cases before with
      | nil =>
        rw [show rest = c :: cs from hsplit.symm] at hmatch
        rw [show ([] : List Char).getLast?.or prev = prev from rfl, hnone] at hmatch
        cases hmatch
      | cons d before =>
        obtain ⟨rfl, hcs⟩ := List.cons.inj hsplit
        rw [getLast?_cons_or] at hmatch
        have hle := ih h before rest hcs hmatch
        rw [width_cons]
        omega

/-- Where there is no match, none is made at any place. -/
theorem search_eq_none {α : Type} {p : Matcher α} (before rest : List Char) :
    ∀ {prev : Option Char} {col : Nat}, search p prev col (before ++ rest) = none →
      p (before.getLast?.or prev) rest = none := by
  induction before with
  | nil =>
    intro prev col h
    cases rest with
    | nil =>
      rw [List.append_nil, search, Option.map_eq_none_iff] at h
      exact h
    | cons c rest =>
      rw [List.nil_append, search] at h
      split at h
      · cases h
      · assumption
  | cons c before ih =>
    intro prev col h
    rw [List.cons_append, search] at h
    split at h
    · cases h
    · rw [getLast?_cons_or]
      exact ih h

/-- A match is found where one can be made at any place. -/
theorem isSome_find_iff {α : Type} {p : Matcher α} {code : List Char} :
    (find p code).isSome = true ↔
      ∃ before rest, code = before ++ rest ∧ (p before.getLast? rest).isSome = true := by
  constructor
  · intro h
    obtain ⟨⟨k, a⟩, hfind⟩ := Option.isSome_iff_exists.1 h
    obtain ⟨before, rest, hcode, _, hmatch⟩ := search_split p code none 0 hfind
    rw [Option.or_none] at hmatch
    exact ⟨before, rest, hcode, Option.isSome_iff_exists.2 ⟨a, hmatch⟩⟩
  · rintro ⟨before, rest, rfl, hmatch⟩
    cases hfind : find p (before ++ rest) with
    | some e => rfl
    | none =>
      have hnone := search_eq_none before rest hfind
      rw [Option.or_none] at hnone
      rw [hnone] at hmatch
      cases hmatch

/-- The column of a match lies in the line or right behind it. -/
theorem find_column_le {α : Type} {p : Matcher α} {code : List Char} {k : Nat} {a : α}
    (h : find p code = some (k, a)) : k ≤ width code := by
  obtain ⟨before, rest, rfl, rfl, _⟩ := search_split p code none 0 h
  rw [width_append]
  omega

/-- What a match found, at the place where it was found. -/
theorem search_match {α : Type} (p : Matcher α) (cs : List Char) (prev : Option Char) (col : Nat)
    {k : Nat} {a : α} (h : search p prev col cs = some (k, a)) : ∃ prev' cs', p prev' cs' = some a := by
  obtain ⟨_, rest, _, _, hmatch⟩ := search_split p cs prev col h
  exact ⟨_, rest, hmatch⟩

theorem lastColumn_le (w : List Char) (cs : List Char) :
    ∀ (col : Nat) {k : Nat}, lastColumn w col cs = some k → k ≤ col + width cs := by
  induction cs with
  | nil =>
    intro col k h
    rw [lastColumn] at h
    split at h
    · cases h
      omega
    · cases h
  | cons c cs ih =>
    intro col k h
    rw [lastColumn] at h
    rw [width_cons]
    split at h
    · rename_i j hj
      cases h
      have := ih (col + units c) hj
      omega
    · split at h
      · cases h
        omega
      · cases h

theorem lastColumn_getD_le (w code : List Char) : (lastColumn w 0 code).getD 0 ≤ width code := by
  cases hlast : lastColumn w 0 code with
  | none => exact Nat.zero_le _
  | some k =>
    have := lastColumn_le w code 0 hlast
    rw [Option.getD_some]
    omega

end Matches

end ScriptLint.Analysis
