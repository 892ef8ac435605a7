import ScriptLint.Proofs.CharacterRuns
import ScriptLint.Proofs.RuleFindings

/-!
# ScriptLint.Proofs.TrailingSpace

Where trailing white space is reported. Whether a line has some is seen by the line as it is written:
it ends with a space or a tab. But the column is the width of the masked line. It is the one right
behind the last character of code, and not the start of the spaces and tabs at the end of the line if
there is anything else between, such as a comment.

* `isSpaceOrTab`: what the rule takes for white space
* `LastCode`: the last character of a line that is code, and no white space
* `LastCode.masked_eq`, `LastCode.width_masked`: a masked line ends with it
* `LastCode.width_run`: what is between it and the spaces and tabs at the end
* `makes_white`: what either edition finds
* `trailing_space_columns`: which lines are reported, at which column
* `trailing_space_behind_comment`: a line that is reported in front of a comment
-/

namespace ScriptLint.Analysis

open ScriptLint.Text

section SpaceOrTab

def isSpaceOrTab (c : Char) : Bool := c == ' ' || c == '\t'

theorem endsInSpace_eq (line : List Char) : endsInSpace line = line.getLast?.any isSpaceOrTab := by
  rw [endsInSpace]
  cases line.getLast? <;> rfl

theorem isBlank_spaceOrTab {c : Char} (h : isSpaceOrTab c = true) : isBlank c = true := by
  rw [isSpaceOrTab, Bool.or_eq_true, beq_iff_eq, beq_iff_eq] at h
  rcases h with rfl | rfl <;> decide

/-- A line that ends with spaces or tabs has a run of them there, and no other line has. -/
theorem endsInSpace_iff {line : List Char} :
    endsInSpace line = true ↔ ∃ before run, RunAt isSpaceOrTab line before run [] := by
  rw [endsInSpace_eq]
  constructor
  · exact exists_run
  · rintro ⟨before, run, h⟩
    obtain ⟨c, hc⟩ := Option.isSome_iff_exists.1 (List.getLast?_isSome.2 h.nonempty)
    rw [h.split, List.append_nil, List.getLast?_append, hc]
    exact h.chars c (List.mem_of_getLast? hc)

end SpaceOrTab

section Code

/-- The last character that is code and no white space. What is behind it is no code, or white
space. -/
structure LastCode (marks front : List (Char × Bool)) (c : Char) (back : List (Char × Bool)) :
    Prop where
  split : marks = front ++ (c, true) :: back
  code : isBlank c = false
  last : ∀ e ∈ back, e.2 = true → isBlank e.1 = true

theorem LastCode.cons {marks front back : List (Char × Bool)} {c : Char}
    (h : LastCode marks front c back) (e : Char × Bool) :
    LastCode (e :: marks) (e :: front) c back :=
  ⟨by rw [h.split, List.cons_append], h.code, h.last⟩

/-- Of characters that are no code, or white space, blanks are left. -/
theorem isBlank_shown {marks : List (Char × Bool)} (h : ∀ e ∈ marks, e.2 = true → isBlank e.1 = true) :
    ∀ d ∈ marks.flatMap ScannedLine.shown, isBlank d = true := by
  intro d hd
  obtain ⟨⟨c, kept⟩, he, hd⟩ := List.mem_flatMap.1 hd
  cases kept with
  | false => exact isBlank_blanks hd
  | true =>
    rw [List.mem_singleton.1 hd]
    exact h _ he rfl

theorem lastCode_or (marks : List (Char × Bool)) :
    (∃ front c back, LastCode marks front c back) ∨
      ∀ e ∈ marks, e.2 = true → isBlank e.1 = true := by
  induction marks with
  | nil => exact .inr nofun
  | cons e marks ih =>
    rcases ih with ⟨front, c, back, h⟩ | hback
    · exact .inl ⟨e :: front, c, back, h.cons e⟩
    · obtain ⟨c, kept⟩ := e
      by_cases hcode : kept = true ∧ isBlank c = false
      · obtain ⟨rfl, hc⟩ := hcode
        exact .inl ⟨[], c, marks, rfl, hc, hback⟩
      · refine .inr (List.forall_mem_cons.2 ⟨fun hkept => ?_, hback⟩)
        rw [← Bool.not_eq_false]
        exact fun hc => hcode ⟨hkept, hc⟩

namespace LastCode

variable {l : ScannedLine} {front back : List (Char × Bool)} {c : Char}

/-- A masked line ends with the last character of code. -/
theorem masked_eq (h : LastCode l.marks front c back) :
    l.masked.code = front.flatMap ScannedLine.shown ++ [c] := by
  show trimEnd isBlank (l.marks.flatMap ScannedLine.shown) = _
  rw [h.split, List.flatMap_append, List.flatMap_cons]
  show trimEnd isBlank (_ ++ c :: back.flatMap ScannedLine.shown) = _
  rw [trimEnd_behind h.code, trimEnd_eq_nil_iff.2 (isBlank_shown h.last)]

/-- So it is as wide as the line is up to this character. -/
theorem width_masked (h : LastCode l.marks front c back) :
    width l.masked.code = width (front.map Prod.fst) + units c := by
  rw [h.masked_eq, width_append, width_flatMap_shown]
  rfl

/-- In front of the spaces and tabs at the end of a line there are the last character of code, and
what is left of all behind it without them. -/
theorem width_run (h : LastCode l.marks front c back) {before run : List Char}
    (hrun : RunAt isSpaceOrTab l.text before run []) :
    width before = width l.masked.code + width (trimEnd isSpaceOrTab (back.map Prod.fst)) := by
  have hc : isSpaceOrTab c = false := by
    rw [← Bool.not_eq_true]
    intro hc
    exact absurd (isBlank_spaceOrTab hc) (by rw [h.code]; decide)
  have htext : l.text = front.map Prod.fst ++ c :: back.map Prod.fst := by
    rw [ScannedLine.text, h.split, List.map_append, List.map_cons]
  rw [hrun.eq_trimEnd, htext, trimEnd_behind hc, h.width_masked, width_append, width_cons,
    Nat.add_assoc]

end LastCode

/-- Something is left of a line if it has a character of code. -/
theorem masked_ne_nil_iff {l : ScannedLine} :
    l.masked.code ≠ [] ↔ ∃ front c back, LastCode l.marks front c back := by
  constructor
  · intro hne
    refine (lastCode_or l.marks).resolve_right fun hnone => hne ?_
    exact trimEnd_eq_nil_iff.2 (isBlank_shown hnone)
  · rintro ⟨front, c, back, h⟩
    rw [h.masked_eq]
    exact List.append_ne_nil_of_right_ne_nil _ (List.cons_ne_nil c [])

end Code

section Findings

def spaceReason : Variant → String
  | .jslint => "Unexpected trailing space."
  | .jshint => "Trailing whitespace."

/-- By the rule for white space, either edition finds lines that end with it, and gives the width of the
masked line. -/
theorem makes_white (v : Variant) (on : Switches) : Makes v on .white fun text m =>
    if (on .white && endsInSpace text) = true ∧ m.code ≠ [] then
      some (width m.code, spaceReason v) else none := by
  refine makes_of_code (fun text m hnil => if_neg fun h => h.2 hnil) fun line text m hcode => ?_
  cases v with
  | jslint =>
    show ofRule .white (Lint.lineFindings on line text m) = _
    rw [Lint.lineFindings, if_neg hcode]
    simp only [ofRule_append, ofRule_report, reduceCtorEq, and_false, if_false, made_none,
      and_true, List.append_nil, List.nil_append, hcode, ne_eq, not_false_eq_true]
    rfl
  | jshint =>
    show ofRule .white (Hint.lineFindings on line text m) = _
    rw [Hint.lineFindings, if_neg hcode, ofRule_append, ofRule_append, ofRule_rows, ofRule_ite,
      ofRule_ite]
    simp only [reduceCtorEq, and_false, if_false, made_none, and_true, List.append_nil, hcode,
      ne_eq, not_false_eq_true]
    rfl

end Findings

/-- What is left of the rest of a line is nothing if all of it is of a class. -/
theorem width_trimEnd_eq_zero {p : Char → Bool} {cs : List Char} :
    width (trimEnd p cs) = 0 ↔ ∀ c ∈ cs, p c = true := by
  constructor
  · intro h
    obtain ⟨tail, hsplit, htail⟩ := trimEnd_append_dropped p cs
    rw [eq_nil_of_width h, List.nil_append] at hsplit
    rw [hsplit]
    exact htail
  · intro h
    rw [trimEnd_eq_nil_iff.2 h]
    rfl

end ScriptLint.Analysis

namespace ScriptLint

open Text Engine Analysis

/-- Where white space at the end of a line is reported. The column is the one right behind the last
character of the line that is code and no white space. It is never behind the start of the spaces and
tabs with which the line ends; and it is their start if, and only if, there is nothing but spaces and
tabs behind that character: no comment, no string, and no white space of another kind. The lines that
are reported, unless `passfail` has the strict edition give up, are those with such a character that
end with a space or a tab. So do the scripts of the library report. -/
theorem trailing_space_columns (v : Variant) (o : Options) (source : List Char) :
    (∀ path options text, handOver options text = .ok (o, source) →
      evaluate (bundledScript v path) options text =
        .ok (trailRecords (bundledTrail v o.switches source)).stringify) ∧
    (∀ f, some f ∈ bundledTrail v o.switches source → Rule.ofReason? f.reason = some f.rule) ∧
    (∀ f, some f ∈ bundledTrail v o.switches source → f.rule = .white →
      ∃ l front c back before run, (scan .code source)[f.line]? = some l ∧ l.text = f.evidence ∧
        LastCode l.marks front c back ∧ RunAt isSpaceOrTab f.evidence before run [] ∧
        f.column = width (front.map Prod.fst) + units c ∧ f.column ≤ width before ∧
        (f.column = width before ↔ ∀ e ∈ back, isSpaceOrTab e.1 = true)) ∧
    ((v = .jslint → o.isOn "passfail" = false) → ∀ k l, (scan .code source)[k]? = some l →
      ((∃ f, some f ∈ bundledTrail v o.switches source ∧ f.line = k ∧ f.rule = .white) ↔
        o.isOn "white" = true ∧ (∃ front c back, LastCode l.marks front c back) ∧
          ∃ before run, RunAt isSpaceOrTab l.text before run [])) := by
  have hmakes := makes_white v o.switches
  refine ⟨?_, fun f hf => told_findingsOf (mem_findingsOf hf), ?_, ?_⟩
  · intro path options text hhand
    exact evaluate_arr (bundled_program v path) hhand rfl
  · intro f hf hrule
    obtain ⟨m, htext, hm, hnoticed⟩ := hmakes.noticed_of_mem (by decide) (mem_findingsOf hf) hrule
    obtain ⟨⟨hactive, hcode⟩, heq⟩ := Option.ite_none_right_eq_some.1 hnoticed
    obtain ⟨hcolumn, -⟩ := Prod.mk.inj (Option.some.inj heq)
    rw [maskLines_eq_scan, List.getElem?_map] at hm
    obtain ⟨l, hl, rfl⟩ := Option.map_eq_some_iff.1 hm
    rw [← text_scan, List.getElem?_map, hl] at htext
    have hevidence : l.text = f.evidence := Option.some.inj htext
    obtain ⟨front, c, back, hlast⟩ := masked_ne_nil_iff.1 hcode
    obtain ⟨before, run, hrun⟩ := endsInSpace_iff.1 (Bool.and_eq_true_iff.1 hactive).2
    have hwidth := hlast.width_run (hevidence ▸ hrun)
    rw [hcolumn] at hwidth
    refine ⟨l, front, c, back, before, run, hl, hevidence, hlast, hrun,
      hcolumn ▸ hlast.width_masked, by omega, ?_⟩
    have hrest : (∀ e ∈ back, isSpaceOrTab e.1 = true) ↔
        ∀ c ∈ back.map Prod.fst, isSpaceOrTab c = true := by
      rw [List.forall_mem_map]
    rw [hrest, ← width_trimEnd_eq_zero]
    omega
  · intro hpassfail k l hl
    have htrail : bundledTrail v o.switches source = (findingsOf v o.switches source).map some :=
      bundledTrail_findingsOf hpassfail source
    have htext : (lines source)[k]? = some l.text := by
      rw [← text_scan, List.getElem?_map, hl]
      rfl
    have hm : (maskLines (maskOf v) false (lines source))[k]? = some l.masked := by
      rw [maskLines_eq_scan, List.getElem?_map, hl]
      rfl
    have hnoticed : (if (o.switches .white && endsInSpace l.text) = true ∧ l.masked.code ≠ [] then
          some (width l.masked.code, spaceReason v) else none).isSome = true ↔
        o.isOn "white" = true ∧ l.masked.code ≠ [] ∧ endsInSpace l.text = true := by
      rw [Option.isSome_ite, Bool.and_eq_true, and_assoc, and_comm (a := endsInSpace l.text = true)]
      rfl
    rw [← masked_ne_nil_iff, ← endsInSpace_iff, ← hnoticed, ← hmakes.reported_iff (by decide) htext hm,
      htrail]
    simp only [List.mem_map, Option.some.injEq, exists_eq_right]

/-- In front of a comment at the end of a line, either edition reports the column behind the code,
though the spaces at the end stand behind the comment. -/
theorem trailing_space_behind_comment :
    handOver (optionsOn .white) "x; // y " = .ok (objectOn .white, "x; // y ".toList) ∧
    (objectOn .white).isOn "white" = true ∧
    (∀ v, bundledTrail v (objectOn .white).switches "x; // y ".toList =
      [some ⟨.white, 0, 2, spaceReason v, "x; // y ".toList⟩]) ∧
    (∃ before run, RunAt isSpaceOrTab "x; // y ".toList before run []) ∧
    ∀ before run, RunAt isSpaceOrTab "x; // y ".toList before run [] → width before = 7 := by
  refine ⟨handOver_on .white _, by decide, fun v => ?_, ?_, ?_⟩
  · cases v <;> decide
  · exact endsInSpace_iff.1 (by decide)
  · intro before run hrun
    rw [hrun.eq_trimEnd]
    decide

end ScriptLint
