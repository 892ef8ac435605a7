import Mathlib.Data.List.Forall2
import ScriptLint.Proofs.Batches
import ScriptLint.Proofs.Passes

/-!
# ScriptLint.Proofs.FileTexts

Checking a file is checking its text. A file is read with every line end written as LF, which
changes the text that a script of the library is handed, but nothing that it finds.

* `lines_unifyNewlines`, `untilNul_unifyNewlines`: lines and the first NUL stay where they were
* `contains_unifyNewlines`: so does what is written on one line
* `bundledTrail_unifyNewlines`: an edition finds the same with all line ends written as LF
* `Checker.checkFiles_texts`: files, and their texts as they were written
-/

namespace ScriptLint

open Text Engine Analysis

section Newlines

theorem lines_unifyNewlines (cs : List Char) : lines (unifyNewlines cs) = lines cs := by
  fun_induction unifyNewlines cs with
  | case1 => rfl
  | case2 cs ih => simp [lines, ih]
  | case3 c cs hpair ih =>
    by_cases hcr : c = '\r'
    · subst hcr
      rw [if_pos rfl, lines.eq_3 '\r' cs hpair]
      simp [lines, ih]
    · rw [if_neg hcr, lines.eq_3 c cs hpair, lines.eq_3 c _ (fun _ h => absurd h hcr), ih]

theorem untilNul_unifyNewlines (cs : List Char) :
    untilNul (unifyNewlines cs) = unifyNewlines (untilNul cs) := by
  fun_induction unifyNewlines cs with
  | case1 => rfl
  | case2 cs ih => simpa [untilNul, unifyNewlines] using ih
  | case3 c cs hpair ih =>
    by_cases hnul : c = '\x00'
    · subst hnul
      rfl
    · have hcut : untilNul (c :: cs) = c :: untilNul cs :=
        List.takeWhile_cons_of_pos (by simpa using hnul)
      have hcut' : ∀ ds, untilNul ((if c = '\r' then '\n' else c) :: ds) =
          (if c = '\r' then '\n' else c) :: untilNul ds := by
        intro ds
        refine List.takeWhile_cons_of_pos ?_
        split
        · rfl
        · simpa using hnul
      -- the cut does not put a CR in front of an LF
      have hpair' : ∀ ds, c = '\r' → untilNul cs = '\n' :: ds → False := by
        intro ds hcr hds
        obtain ⟨rest, hrest⟩ : untilNul cs <+: cs := List.takeWhile_prefix _
        rw [hds] at hrest
        exact hpair _ hcr hrest.symm
      rw [hcut, hcut', unifyNewlines.eq_3 c _ hpair', ih]

theorem width_unifyNewlines_le (cs : List Char) : width (unifyNewlines cs) ≤ width cs := by
  fun_induction unifyNewlines cs with
  | case1 => exact Nat.le_refl _
  | case2 cs ih =>
    rw [width_cons, width_cons, width_cons]
    omega
  | case3 c cs _ ih =>
    have hunits : units (if c = '\r' then '\n' else c) ≤ units c := by
      split
      · exact Analysis.units_pos c
      · exact Nat.le_refl _
    rw [width_cons, width_cons]
    omega

/-- Neither character of a line end. -/
def Unbroken (w : List Char) : Prop := '\r' ∉ w ∧ '\n' ∉ w

theorem isPrefixOf_unifyNewlines {w : List Char} (h : Unbroken w) (cs : List Char) :
    w.isPrefixOf (unifyNewlines cs) = w.isPrefixOf cs := by
  induction w generalizing cs with
  | nil => simp
  | cons a w ih =>
    obtain ⟨hcr, hlf⟩ := h
    rw [List.mem_cons, not_or] at hcr hlf
    have hrest := ih ⟨hcr.2, hlf.2⟩
    fun_cases unifyNewlines cs with
    | case1 => rfl
    | case2 cs =>
      rw [List.isPrefixOf, List.isPrefixOf, beq_false_of_ne (Ne.symm hcr.1),
        beq_false_of_ne (Ne.symm hlf.1), Bool.false_and, Bool.false_and]
    | case3 c cs hpair =>
      rw [List.isPrefixOf, List.isPrefixOf, hrest]
      by_cases hc : c = '\r'
      · rw [if_pos hc, hc, beq_false_of_ne (Ne.symm hcr.1), beq_false_of_ne (Ne.symm hlf.1)]
      · rw [if_neg hc]

/-- Words that stay on one line are where they were. -/
theorem contains_unifyNewlines {w : List Char} (h : Unbroken w) (cs : List Char) :
    contains w (unifyNewlines cs) = contains w cs := by
  fun_induction unifyNewlines cs with
  | case1 => rfl
  | case2 cs ih =>
    have hpair : w.isPrefixOf ('\n' :: unifyNewlines cs) = w.isPrefixOf ('\r' :: '\n' :: cs) :=
      isPrefixOf_unifyNewlines h ('\r' :: '\n' :: cs)
    have hlf : w.isPrefixOf ('\n' :: unifyNewlines cs) = w.isPrefixOf ('\n' :: cs) :=
      isPrefixOf_unifyNewlines h ('\n' :: cs)
    rw [contains, contains, contains, ih, ← hpair, ← hlf, ← Bool.or_assoc, Bool.or_self]
  | case3 c cs hpair ih =>
    have hprefix := isPrefixOf_unifyNewlines h (c :: cs)
    rw [unifyNewlines.eq_3 c cs hpair] at hprefix
    rw [contains, contains, hprefix, ih]

theorem declaresStrict_unifyNewlines (cs : List Char) :
    declaresStrict (unifyNewlines cs) = declaresStrict cs := by
  have hsingle : Unbroken "'use strict'".toList := by
    unfold Unbroken
    decide
  have hdouble : Unbroken "\"use strict\"".toList := by
    unfold Unbroken
    decide
  rw [declaresStrict, declaresStrict, contains_unifyNewlines hsingle,
    contains_unifyNewlines hdouble]

end Newlines

/-- An edition finds the same in a text with every line end written as LF. -/
theorem bundledTrail_unifyNewlines (v : Variant) (on : Switches) (cs : List Char) :
    bundledTrail v on (unifyNewlines cs) = bundledTrail v on cs := by
  cases v with
  | jslint =>
    simp only [bundledTrail, Lint.trail, Lint.firstFinding, Lint.findings, Lint.strictFindings,
      declaresStrict_unifyNewlines, lines_unifyNewlines]
  | jshint =>
    simp only [bundledTrail, Hint.findings, declaresStrict_unifyNewlines, lines_unifyNewlines]

theorem bundledDiagnostics_unifyNewlines (v : Variant) (on : Switches) (cs : List Char) :
    bundledDiagnostics v on (String.ofList (unifyNewlines cs)) =
      bundledDiagnostics v on (String.ofList cs) := by
  rw [bundledDiagnostics, bundledDiagnostics, String.toList_ofList, String.toList_ofList,
    untilNul_unifyNewlines, bundledTrail_unifyNewlines]

theorem evaluate_unifyNewlines (v : Variant) (path : Path) (options : List (String × Value))
    (cs : List Char) :
    evaluate (bundledScript v path) options (String.ofList (unifyNewlines cs)) =
      evaluate (bundledScript v path) options (String.ofList cs) := by
  simp only [evaluate, bundled_program, handOver_eq, String.toList_ofList, untilNul_unifyNewlines]
  cases allWritable options with
  | false => rfl
  | true =>
    cases assignValues .empty (Mapping.ofPairs options) with
    | error detail => rfl
    | ok o => simp only [if_true, bundledTrail_unifyNewlines]

/-- A check makes of a text what its script hands back for it. -/
theorem runIsolated_congr {s : Script} {options : List (String × Value)} {text text' : String}
    (h : evaluate s options text = evaluate s options text') (limits : Limits) (policy : Policy) :
    (runIsolated s options text limits policy).1 =
      (runIsolated s options text' limits policy).1 := by
  cases hissue : limits.issue? with
  | none =>
    rw [runIsolated_eq hissue, runIsolated_eq hissue, Context.run_eq rfl rfl,
      Context.run_eq rfl rfl, h]
  | some issue =>
    rw [runIsolated_limited _ _ _ policy hissue, runIsolated_limited _ _ _ policy hissue]

/-- The file holds these characters, in UTF-8. -/
def World.Holds (w : World) (p : Path) (cs : List Char) : Prop :=
  ∃ bs, w.tree.read (w.absolute p) = .ok (.bytes bs) ∧ Utf8.decode bs = .ok cs

theorem World.Holds.readText {w : World} {p : Path} {cs : List Char} (h : w.Holds p cs) :
    w.readText p = .ok (String.ofList (unifyNewlines cs)) := by
  obtain ⟨bs, hread, hdecode⟩ := h
  obtain ⟨hnul, _⟩ := FileTree.locate_ok (FileTree.read_eq_ok_iff.1 hread)
  simp only [World.readText, World.readScriptText, hnul, hread, ScriptText.ofContent, hdecode,
    Bool.false_eq_true, if_false]

namespace Checker

variable {c : Checker} {w : World}

/-- The report is that of a check of the text. -/
def Reports (c : Checker) (w : World) (text : String) (r : FileReport) : Prop :=
  (∃ result, (c.run w text).1 = .ok result ∧ r.diagnostics = result.diagnostics) ∧
    (c.check w text).1 = .ok r.report

theorem reports_hands {path : Path} {o : Engine.Options} (h : c.Hands w path o) {text : String}
    (hwidth : width text.toList + 1 < 10 ^ Digits.limit) (p : Path) :
    c.Reports w text (reportOf (p, bundledDiagnostics c.variant o.switches text)) := by
  obtain ⟨w', hrun, _⟩ := run_hands h (Nat.lt_of_succ_lt hwidth)
  rw [Reports, check_eq, hrun]
  exact ⟨⟨_, rfl, rfl⟩, if_pos (bundledDiagnostics_showable _ _ hwidth)⟩

/-- Whatever comes of a check with a script of the library, line ends do not matter to it. -/
theorem run_unifyNewlines {path : Path} (h : c.Runs w (bundledScript c.variant path))
    (cs : List Char) :
    (c.run w (String.ofList (unifyNewlines cs))).1 = (c.run w (String.ofList cs)).1 := by
  obtain ⟨_, _, hpin, _⟩ := pinScript_runs h
  rw [run_eq, run_eq, hpin]
  exact runIsolated_congr (evaluate_unifyNewlines c.variant path c.store.snapshot cs) _ _

/-- A batch of files is checked as their texts are, with a script of the library. Whatever line ends
a file has, mixed in any way, and wherever its first NUL is, what is read from it has the same
outcome as its text as it was written. Where the interpreter can open a context, all options are
written and none holds a special number, there is a report on every file, in order, and it is the
report that the checker makes on the text of the file as it was written. With an option that is not
written there is no report: the batch fails at its first file, as every check does. -/
theorem checkFiles_texts {path : Path} (hruns : c.Runs w (bundledScript c.variant path))
    {files : List (Path × List Char)} (hfiles : ∀ e ∈ files, w.Holds e.1 e.2) :
    (∀ e ∈ files, ∃ text, w.readText e.1 = .ok text ∧
      (c.run w text).1 = (c.run w (String.ofList e.2)).1) ∧
    (c.Opens → c.Written → (∀ e ∈ c.store.snapshot, e.2.isFinite = true) →
      (∀ e ∈ files, width e.2 + 1 < 10 ^ Digits.limit) →
      ∃ reports c' w', c.checkFiles w (files.map Prod.fst) = (.ok reports, c', w') ∧
        List.Forall₂ (fun e r => r.path = e.1 ∧ c.Reports w (String.ofList e.2) r) files
          reports) ∧
    (c.Opens → ¬ c.Written →
      (files ≠ [] → ∃ c' w', c.checkFiles w (files.map Prod.fst) =
        (.error .unwritable, c', w')) ∧
      ∀ text, (c.run w text).1 = .error .unwritable ∧ (c.check w text).1 = .error .unwritable) := by
  refine ⟨fun e he => ⟨_, (hfiles e he).readText, run_unifyNewlines hruns e.2⟩, ?_, ?_⟩
  · intro hopens hwritten hfinite hnarrow
    obtain ⟨o, hhand⟩ := handOver_untilNul (allWritable_iff.2 hwritten) hfinite ""
    obtain ⟨_, hassign, _⟩ := handOver_eq_ok_iff.1 hhand
    have hhands : c.Hands w path o := ⟨hruns, hopens, hwritten, hassign⟩
    have hread : ∀ e ∈ files.map fun e => (e.1, String.ofList (unifyNewlines e.2)),
        w.readText e.1 = .ok e.2 ∧ width e.2.toList + 1 < 10 ^ Digits.limit := by
      refine List.forall_mem_map.2 fun e he => ⟨(hfiles e he).readText, ?_⟩
      rw [String.toList_ofList]
      exact Nat.lt_of_le_of_lt (Nat.succ_le_succ (width_unifyNewlines_le e.2)) (hnarrow e he)
    obtain ⟨c', w', hcheck⟩ := checkFiles_passes (passes_hands hhands hread)
    simp only [List.map_map] at hcheck
    refine ⟨_, c', w', hcheck, ?_⟩
    rw [List.forall₂_map_right_iff, List.forall₂_same]
    intro e he
    have hwidth : width (String.ofList e.2).toList + 1 < 10 ^ Digits.limit := by
      rw [String.toList_ofList]
      exact hnarrow e he
    have hreports := reports_hands hhands hwidth e.1
    rw [← bundledDiagnostics_unifyNewlines] at hreports
    exact ⟨rfl, hreports⟩
  · intro hopens hunwritten
    refine ⟨fun hne => ?_, fun text => ⟨run_unwritten hruns hopens hunwritten text,
      check_unwritten hruns hopens hunwritten text⟩⟩
    obtain ⟨e, rest, rfl⟩ := List.exists_cons_of_ne_nil hne
    exact checkFiles_refused _ (hfiles e List.mem_cons_self).readText
      (check_unwritten hruns hopens hunwritten _)

/-- Files with line ends of every kind next to each other, and with a NUL between CR and LF. -/
def lineEndFiles : List (Path × List Char) :=
  [(⟨0, ["a.js"]⟩, "'use strict'\r\r\n\n\rf()".toList),
    (⟨0, ["b.js"]⟩, "f()\r\x00\nf()".toList)]

def lineEndWorld : World :=
  { bundleWorld with
    tree := ⟨(bundleFile.parts, .file (.bytes [])) ::
      lineEndFiles.map fun e => (e.1.parts, .file (.bytes (Utf8.encode e.2)))⟩ }

theorem holds_lineEnds : ∀ e ∈ lineEndFiles, lineEndWorld.Holds e.1 e.2 := by
  refine List.forall_mem_cons.2 ⟨⟨_, rfl, ?_⟩, List.forall_mem_cons.2 ⟨⟨_, rfl, ?_⟩, nofun⟩⟩
  · decide +kernel
  · decide +kernel

theorem onBundle_lineEnds : (createdWith []).OnBundle lineEndWorld :=
  onBundle_kept rfl (by decide) rfl rfl rfl rfl

theorem checkFiles_texts_lineEnds : ∃ reports c' w',
    (createdWith []).checkFiles lineEndWorld (lineEndFiles.map Prod.fst) = (.ok reports, c', w') ∧
      List.Forall₂ (fun e r => r.path = e.1 ∧
        (createdWith []).Reports lineEndWorld (String.ofList e.2) r) lineEndFiles reports := by
  obtain ⟨_, hruns⟩ := onBundle_lineEnds.runs
  have hnarrow : ∀ e ∈ lineEndFiles, width e.2 + 1 < 10 ^ 2 := by decide
  have hpow : 10 ^ 2 ≤ 10 ^ Digits.limit := Nat.pow_le_pow_right (by decide) (by decide)
  exact (checkFiles_texts hruns holds_lineEnds).2.1 onBundle_lineEnds.limits written_createdWith
    (fun e he => Value.isFinite_of_isOrdinary (onBundle_lineEnds.values e he))
    fun e he => Nat.lt_of_lt_of_le (hnarrow e he) hpow

/-- With an option that is not written there is no report on files of texts. -/
theorem checkFiles_overlong :
    ((createdWith []).set "wide" (.int Digits.overlong)).OnBundle lineEndWorld ∧
    (∀ e ∈ lineEndFiles, lineEndWorld.Holds e.1 e.2) ∧
    ∃ c' w', ((createdWith []).set "wide" (.int Digits.overlong)).checkFiles lineEndWorld
      (lineEndFiles.map Prod.fst) = (.error .unwritable, c', w') := by
  have hset : ((createdWith []).set "wide" (.int Digits.overlong)).OnBundle lineEndWorld :=
    onBundle_lineEnds.set "wide" rfl
  obtain ⟨_, hruns⟩ := hset.runs
  have hunwritten : ¬ ((createdWith []).set "wide" (.int Digits.overlong)).Written :=
    not_written_set onBundle_lineEnds "wide" Digits.isWritable_overlong
  exact ⟨hset, holds_lineEnds, checkFiles_refused _ (holds_lineEnds _ List.mem_cons_self).readText
    (check_unwritten hruns hset.limits hunwritten _)⟩

end Checker

end ScriptLint
