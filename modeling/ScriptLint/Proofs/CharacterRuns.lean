import ScriptLint.Proofs.Findings

/-!
# ScriptLint.Proofs.CharacterRuns

Runs of characters of one class in a text, and what is left of a text that is trimmed of such a run at
its end.

* `RunAt`: characters of a class, and none of the class on either side of them
* `runs`: the runs of a text
* `RunAt.eq_trimEnd`: what stands in front of the run that ends a text
-/

namespace ScriptLint.Analysis

open ScriptLint.Text

section Runs

/-- Characters of a class, with none of the class right in front of them or right behind. -/
structure RunAt (p : Char → Bool) (code before run behind : List Char) : Prop where
  split : code = before ++ (run ++ behind)
  nonempty : run ≠ []
  chars : ∀ c ∈ run, p c = true
  front : before.getLast?.any p = false
  back : behind.head?.any p = false

/-- The runs of a text, and nothing where none starts. -/
def runs (p : Char → Bool) (code : List Char) : List (List Char) :=
  (List.range code.length).filterMap fun n =>
    if (code.take n).getLast?.any p then none else some ((code.drop n).takeWhile p)

theorem RunAt.mem_runs {p : Char → Bool} {code before run behind : List Char}
    (h : RunAt p code before run behind) : run ∈ runs p code := by
  obtain ⟨rfl, hne, hchars, hfront, hback⟩ := h
  have hn : before.length ∈ List.range (before ++ (run ++ behind)).length := by
    have hpos := List.length_pos_iff.2 hne
    rw [List.mem_range, List.length_append, List.length_append]
    omega
  refine List.mem_filterMap.2 ⟨before.length, hn, ?_⟩
  rw [List.take_left, List.drop_left, takeWhile_append_stop hchars hback, hfront]
  rfl

end Runs

section Ends

variable {p : Char → Bool} {cs : List Char}

/-- What stands in front of the run that ends a text is the text, trimmed of the class. -/
theorem RunAt.eq_trimEnd {before run : List Char} (h : RunAt p cs before run []) :
    before = trimEnd p cs := by
  rw [h.split, List.append_nil, trimEnd_append h.chars, trimEnd_eq_self h.front]

/-- A text that ends with a character of a class ends with a run. -/
theorem exists_run (h : cs.getLast?.any p = true) : ∃ before run, RunAt p cs before run [] := by
  obtain ⟨before, run, hsplit, hrun, hfront⟩ := exists_front p cs
  refine ⟨before, run, ⟨by rw [hsplit, List.append_nil], ?_, hrun, hfront, rfl⟩⟩
  rintro rfl
  rw [hsplit, List.append_nil, hfront] at h
  cases h

end Ends

end ScriptLint.Analysis
