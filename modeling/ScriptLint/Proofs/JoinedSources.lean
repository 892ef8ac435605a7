import ScriptLint.Proofs.MaskedSources

/-!
# ScriptLint.Proofs.JoinedSources

An edition goes through a source line by line, and nothing but an open block comment is carried from
one line to the next. Where a source leaves none open, what is joined to it by a line end is looked
at as if it stood alone.

* `lines_join`: the lines of two texts that are joined by a line end
* `leavesOpen`: a source at whose end a block comment is open
* `walk_append`, `walk_below`: walking on behind some lines, and counting lines from further down
* `joined_sources_agree`: the records of the scripts of the library
-/

namespace ScriptLint.Analysis

open ScriptLint.Text

section Lines

/-- A line end that is no part of another ends a line, and the lines behind it are those of the text
behind it. -/
theorem lines_join {cs : List Char} (h : cs.getLast? ≠ some '\r') (cs' : List Char) :
    lines (cs ++ '\n' :: cs') = lines cs ++ lines cs' := by
  have hrest : ∀ {c : Char} {cs : List Char}, (c :: cs).getLast? ≠ some '\r' →
      cs.getLast? ≠ some '\r' := by
    intro c cs h hlast
    rw [List.getLast?_cons, hlast] at h
    exact h rfl
  fun_induction lines cs with
  | case1 => rfl
  | case2 cs ih =>
    show [] :: lines (cs ++ '\n' :: cs') = [] :: (lines cs ++ lines cs')
    rw [ih (hrest (hrest h))]
  | case3 c cs hpair hend ih =>
    have hpair' : ∀ rest, c = '\r' → cs ++ '\n' :: cs' = '\n' :: rest → False := by
      intro rest hc heq
      cases cs with
      | nil => exact h (congrArg some hc)
      | cons d cs =>
        obtain rfl : d = '\n' := (List.cons.inj heq).1
        exact hpair cs hc rfl
    rw [List.cons_append, lines.eq_3 c _ hpair', if_pos hend, ih (hrest h)]
    rfl
  | case4 c cs _ hend ih =>
    obtain ⟨first, rest, hlines⟩ := List.exists_cons_of_ne_nil (lines_ne_nil cs)
    rw [List.cons_append, lines_cons hend, ih (hrest h), hlines]
    rfl

end Lines

section Open

/-- Whether a block comment is open at the end of a source: where its last line ends, the scanner is
in one. -/
def leavesOpen (source : List Char) : Bool :=
  (scan .code source).getLast?.any ScannedLine.inComment

/-- Whether a block comment is open behind lines, each masked from where those before it leave off. -/
def openBehind (mask : Bool → List Char → Masked) : Bool → List (List Char) → Bool
  | inComment, [] => inComment
  | inComment, line :: lines => openBehind mask (mask inComment line).inComment lines

theorem openBehind_eq (mask : Bool → List Char → Masked) (lines : List (List Char)) :
    ∀ inComment : Bool, openBehind mask inComment lines =
      ((maskLines mask inComment lines).getLast?.map Masked.inComment).getD inComment := by
  induction lines with
  | nil => intro inComment; rfl
  | cons line lines ih =>
    intro inComment
    rw [openBehind, ih, maskLines, List.getLast?_cons]
    cases (maskLines mask (mask inComment line).inComment lines).getLast? <;> rfl

/-- Behind the lines of a source a comment is open where the scanner says so. -/
theorem openBehind_lines (v : Variant) (source : List Char) :
    openBehind (maskOf v) false (lines source) = leavesOpen source := by
  rw [openBehind_eq, maskLines_eq_scan, List.getLast?_map, leavesOpen]
  cases (scan .code source).getLast? <;> rfl

end Open

section Walk

variable {mask : Bool → List Char → Masked} {check : Nat → List Char → Masked → List Finding}

/-- Lines behind lines are walked from where these leave off. -/
theorem walk_append (texts texts' : List (List Char)) : ∀ (inComment : Bool) (line : Nat),
    walk mask check inComment line (texts ++ texts') =
      walk mask check inComment line texts ++
        walk mask check (openBehind mask inComment texts) (line + texts.length) texts' := by
  induction texts with
  | nil => intro inComment line; rfl
  | cons text texts ih =>
    intro inComment line
    rw [List.cons_append, walk, walk, ih, List.append_assoc, List.length_cons, openBehind,
      Nat.add_assoc, Nat.add_comm 1]

/-- The same finding, so many lines further down. -/
def Finding.below (n : Nat) (f : Finding) : Finding := { f with line := f.line + n }

/-- Findings on one line that say the same of it wherever it stands. -/
def Movable (check : Nat → List Char → Masked → List Finding) : Prop :=
  ∀ n line text m, check (line + n) text m = (check line text m).map (Finding.below n)

theorem walk_below (hcheck : Movable check) (n : Nat) (texts : List (List Char)) :
    ∀ (inComment : Bool) (line : Nat), walk mask check inComment (line + n) texts =
      (walk mask check inComment line texts).map (Finding.below n) := by
  induction texts with
  | nil => intro inComment line; rfl
  | cons text texts ih =>
    intro inComment line
    rw [walk, walk, hcheck, List.map_append, ← ih, Nat.add_right_comm]

theorem below_ite (active : Bool) (n : Nat) (f : Finding) :
    (if active then [f.below n] else []) =
      (if active then [f] else []).map (Finding.below n) := by
  cases active <;> rfl

theorem Lint.report_below {α : Type} (active : Bool) (rule : Rule) (n line : Nat)
    (text : List Char) (found : Option (Nat × α)) (reason : α → String) :
    report active rule (line + n) text found reason =
      (report active rule line text found reason).map (Finding.below n) := by
  cases active <;> cases found <;> rfl

theorem Lint.movable (on : Switches) : Movable (lineFindings on) := by
  intro n line text m
  rw [lineFindings, lineFindings]
  split
  · rfl
  · simp only [report_below, List.map_append]

theorem Hint.apply_below (r : LineRule) (on : Switches) (n line : Nat) (text code : List Char) :
    r.apply on (line + n) text code = (r.apply on line text code).map (Finding.below n) := by
  rw [LineRule.apply, LineRule.apply]
  cases r.check code with
  | none => cases r.active on <;> rfl
  | some found => cases r.active on <;> rfl

theorem Hint.movable (on : Switches) : Movable (lineFindings on) := by
  intro n line text m
  rw [lineFindings, lineFindings]
  split
  · rfl
  · simp only [apply_below, List.map_append, List.map_flatMap, ← below_ite, Finding.below]

theorem checkOf_movable (v : Variant) (on : Switches) : Movable (checkOf v on) := by
  cases v with
  | jslint => exact Lint.movable on
  | jshint => exact Hint.movable on

/-- What is joined to a source by a line end is walked as if it stood alone. -/
theorem walk_join (v : Variant) (on : Switches) {source : List Char}
    (hend : source.getLast? ≠ some '\r') (hclosed : leavesOpen source = false)
    (source' : List Char) :
    walk (maskOf v) (checkOf v on) false 0 (lines (source ++ '\n' :: source')) =
      walk (maskOf v) (checkOf v on) false 0 (lines source) ++
        (walk (maskOf v) (checkOf v on) false 0 (lines source')).map
          (Finding.below (lines source).length) := by
  rw [lines_join hend, walk_append, openBehind_lines, hclosed, walk_below (checkOf_movable v on)]

end Walk

end ScriptLint.Analysis

namespace ScriptLint

open Text Engine Analysis

theorem nul_untilNul (cs : List Char) : '\x00' ∉ untilNul cs := by
  intro hmem
  cases mem_takeWhile hmem

/-- Two sources that are joined by a line end. Where the first does not end in CR, which would make
one line end with the LF behind it, and leaves no block comment open, an edition with `strict` off,
and for the strict edition `passfail` too, finds what it finds in the first and then what it finds in
the second, that many lines further down as the first has; columns, reasons and evidence stay. So do
the scripts of the library, for all options and texts by which they are called in this way. -/
theorem joined_sources_agree (v : Variant) (o : Options) (source source' : List Char)
    (hend : source.getLast? ≠ some '\r') (hclosed : leavesOpen source = false)
    (hstrict : o.isOn "strict" = false) (hpassfail : v = .jslint → o.isOn "passfail" = false) :
    ∃ first second : List Finding,
      bundledTrail v o.switches source = first.map some ∧
      bundledTrail v o.switches source' = second.map some ∧
      bundledTrail v o.switches (source ++ '\n' :: source') =
        (first ++ second.map (Finding.below (lines source).length)).map some ∧
      ∀ path options text text', handOver options text = .ok (o, source) →
        handOver options text' = .ok (o, source') →
        Reports v path options text first ∧ Reports v path options text' second ∧
        Reports v path options (String.ofList (source ++ '\n' :: source'))
          (first ++ second.map (Finding.below (lines source).length)) := by
  have htrail : ∀ src, bundledTrail v o.switches src =
      (walk (maskOf v) (checkOf v o.switches) false 0 (lines src)).map some :=
    bundledTrail_walk hstrict hpassfail
  have hjoined := htrail (source ++ '\n' :: source')
  rw [walk_join v o.switches hend hclosed] at hjoined
  refine ⟨_, _, htrail source, htrail source', hjoined, ?_⟩
  intro path options text text' hhand hhand'
  refine ⟨reports_trail hhand (htrail source), reports_trail hhand' (htrail source'),
    reports_trail ?_ hjoined⟩
  obtain ⟨hwritten, hassign, hsource⟩ := handOver_eq_ok_iff.1 hhand
  obtain ⟨_, _, hsource'⟩ := handOver_eq_ok_iff.1 hhand'
  have hnul : '\x00' ∉ source ++ '\n' :: source' := by
    rw [List.mem_append, List.mem_cons, hsource, hsource']
    rintro (hmem | heq | hmem)
    · exact nul_untilNul _ hmem
    · cases heq
    · exact nul_untilNul _ hmem
  refine handOver_eq_ok_iff.2 ⟨hwritten, hassign, ?_⟩
  rw [String.toList_ofList, untilNul_of_not_mem hnul]

theorem joined_sources_agree_lax :
    ∃ first second : List Finding,
      Reports .jslint (Path.parse "jslint.js") laxOptions "a == 'b == c' /*\n*/d" first ∧
      Reports .jslint (Path.parse "jslint.js") laxOptions "\r\n'e /*\n == f*/" second ∧
      Reports .jslint (Path.parse "jslint.js") laxOptions
        "a == 'b == c' /*\n*/d\n\r\n'e /*\n == f*/" (first ++ second.map (Finding.below 2)) := by
  have hhand : handOver laxOptions "\r\n'e /*\n == f*/" =
      .ok (laxObject, "\r\n'e /*\n == f*/".toList) :=
    handOver_eq_ok_iff.2 ⟨(handOver_eq_ok_iff.1 handOver_lax).1,
      (handOver_eq_ok_iff.1 handOver_lax).2.1, rfl⟩
  obtain ⟨first, second, _, _, _, hreports⟩ := joined_sources_agree .jslint laxObject
    "a == 'b == c' /*\n*/d".toList "\r\n'e /*\n == f*/".toList (by decide) (by decide) (by decide)
    (fun _ => by decide)
  exact ⟨first, second, hreports (Path.parse "jslint.js") _ _ _ handOver_lax hhand⟩

end ScriptLint
