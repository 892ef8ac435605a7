import ScriptLint.Proofs.CommandExit
import ScriptLint.Proofs.Echo
import ScriptLint.Proofs.Passes

/-!
# ScriptLint.Proofs.Formats

A batch of files in its two formats. The document holds what was found in every file, and the report
is laid out from what the document holds.

* `Shown`, `Entry`: what a document holds of a finding and of a file
* `readAs_document`: the document is read back
* `linesText_blocks`: the report, line by line
* `formats_agree`: a command line in both formats
-/

namespace ScriptLint

open Engine Cli

/-- A finding in a document. Positions count from one. -/
structure Shown where
  line : Int
  character : Int
  reason : String
  evidence : String

namespace Shown

def ofDiagnostic (d : Diagnostic) : Shown := ⟨d.line + 1, d.character + 1, d.reason, d.evidence⟩

def document (s : Shown) : Json :=
  .obj [("line", .int s.line), ("character", .int s.character), ("reason", .str s.reason),
    ("evidence", .str s.evidence)]

def lines (s : Shown) : List String :=
  ["Error at line " ++ Diagnostic.shownInt s.line ++ " character " ++
    Diagnostic.shownInt s.character ++ ": " ++ s.reason, "  " ++ s.evidence]

/-- A dialect takes the positions. -/
def TakenBy (d : Json.Dialect) (s : Shown) : Prop :=
  d.refusesDigits (Digits.decimal s.line.natAbs).length = false ∧
  d.refusesDigits (Digits.decimal s.character.natAbs).length = false

instance (d : Json.Dialect) (s : Shown) : Decidable (s.TakenBy d) :=
  inferInstanceAs (Decidable (_ ∧ _))

end Shown

/-- A file in a document. -/
structure Entry where
  path : String
  clean : Bool
  diagnostics : List Shown

namespace Entry

/-- What was found in a file. -/
def ofFound (e : Path × List Diagnostic) : Entry :=
  ⟨e.1.text, e.2.isEmpty, e.2.map Shown.ofDiagnostic⟩

def document (e : Entry) : Json :=
  .obj [("path", .str e.path), ("clean", .bool e.clean),
    ("diagnostics", .arr (e.diagnostics.map Shown.document))]

/-- The block of a file in a report. -/
def lines (e : Entry) : List String :=
  "" :: ("In [" ++ e.path ++ "]:") :: (e.diagnostics.flatMap Shown.lines ++ [""])

end Entry

/-- The document of a batch. -/
def batchDocument (entries : List Entry) : Json := .arr (entries.map Entry.document)

/-- The report on a batch, made from what its document holds: clean files have no block. -/
def batchLines (entries : List Entry) : List String :=
  (entries.filter fun e => !e.clean).flatMap Entry.lines

section Documents

open Json

variable {d : Dialect}

theorem Shown.reread_document {s : Shown} (h : s.TakenBy d) :
    reread d s.document = .ok s.document := by
  refine reread_obj (by simp [Mapping.keys]) ?_
  simp [reread, h.1, h.2]

theorem Entry.reread_document {e : Entry} (h : ∀ s ∈ e.diagnostics, s.TakenBy d) :
    reread d e.document = .ok e.document := by
  have hfound : reread d (.arr (e.diagnostics.map Shown.document)) =
      .ok (.arr (e.diagnostics.map Shown.document)) :=
    reread_arr (List.forall_mem_map.2 fun s hs => Shown.reread_document (h s hs))
  refine reread_obj (by simp [Mapping.keys]) ?_
  simp only [List.forall_mem_cons, List.not_mem_nil, false_imp_iff, implies_true, and_true]
  exact ⟨by rw [reread], by rw [reread], hfound⟩

theorem toJson_fields (x : Diagnostic) :
    (Value.dict (textEntries x.fields)).toJson = (Shown.ofDiagnostic x).document := by
  rw [Value.toJson_dict (by simp [textEntries, Diagnostic.fields, Value.text])]
  simp [Value.entryFields, textEntries, Diagnostic.fields, Value.text, Value.toJson,
    Shown.ofDiagnostic, Shown.document]

theorem toJson_reportRow (e : Path × List Diagnostic) :
    (Value.dict (reportRow (reportOf e))).toJson = (Entry.ofFound e).document := by
  have hfound : (Value.list (e.2.map fun x => .dict (textEntries x.fields))).toJson =
      .arr ((e.2.map Shown.ofDiagnostic).map Shown.document) := by
    rw [Value.toJson, Value.itemsJson_eq_map, List.map_map, List.map_map]
    exact congrArg Json.arr (List.map_congr_left fun x _ => toJson_fields x)
  rw [reportRow, clean_reportOf, Value.toJson_dict (by simp [textEntries, Value.text])]
  exact congrArg (fun j => Json.obj [("path", .str e.1.text), ("clean", .bool e.2.isEmpty),
    ("diagnostics", j)]) hfound

theorem toJson_rows (found : List (Path × List Diagnostic)) :
    (Table.rowsValue ((found.map reportOf).map reportRow)).toJson =
      batchDocument (found.map Entry.ofFound) := by
  rw [Table.rowsValue, Value.toJson, Value.itemsJson_eq_map, batchDocument]
  simp only [List.map_map]
  exact congrArg Json.arr (List.map_congr_left fun e _ => toJson_reportRow e)

/-- The document of a batch is read back by every dialect that takes its positions. -/
theorem readAs_document {entries : List Entry}
    (h : ∀ e ∈ entries, ∀ s ∈ e.diagnostics, s.TakenBy d) :
    readAs d (line (batchDocument entries).pretty) = .ok (batchDocument entries) := by
  have hentries : reread d (batchDocument entries) = .ok (batchDocument entries) :=
    reread_arr (List.forall_mem_map.2 fun e he => Entry.reread_document (h e he))
  have hgap : Gap ['\n'] := by
    intro c hc
    rw [List.mem_singleton.1 hc]
    rfl
  have hread := (reads_write (d := d) ⟨false, some 2⟩ (batchDocument entries) 0).readAs_gap hgap
  rw [hentries, String.ofList_append] at hread
  exact hread

end Documents

section Reports

theorem linesText_append (xs ys : List String) :
    linesText (xs ++ ys) = linesText xs ++ linesText ys := by
  rw [linesText, List.map_append, String.join_append]
  rfl

theorem linesText_cons (x : String) (xs : List String) :
    linesText (x :: xs) = line x ++ linesText xs := by
  rw [linesText, List.map_cons, String.join_cons]
  rfl

/-- Lines with line ends between them, and one behind the last. -/
theorem line_intercalate (x : String) (xs : List String) :
    line (String.intercalate "\n" (x :: xs)) = linesText (x :: xs) := by
  induction xs generalizing x with
  | nil => simp [linesText, line]
  | cons y ys ih =>
    rw [linesText_cons, ← ih, String.intercalate_cons_cons]
    simp only [line, String.append_assoc]

/-- The block of a file, if there is one, and the line end that follows it. -/
theorem block?_reportOf (e : Path × List Diagnostic) :
    (e.2 = [] ∧ (reportOf e).block? = none) ∨
    (e.2 ≠ [] ∧ ∃ block, (reportOf e).block? = some block ∧
      line block = linesText (Entry.ofFound e).lines) := by
  obtain ⟨p, ds⟩ := e
  cases ds with
  | nil => exact .inl ⟨rfl, rfl⟩
  | cons x xs =>
    refine .inr ⟨List.cons_ne_nil x xs, _, rfl, ?_⟩
    have hlines : ((x :: xs).map Shown.ofDiagnostic).flatMap Shown.lines =
        (x :: xs).flatMap Diagnostic.reportLines := by
      rw [List.flatMap_map]
      rfl
    have hreport := line_intercalate x.locator
      (x.evidenceLine :: xs.flatMap Diagnostic.reportLines)
    rw [Entry.lines, Entry.ofFound, hlines, linesText_cons, linesText_cons, linesText_append]
    rw [List.flatMap_cons, Diagnostic.reportLines, List.cons_append, List.cons_append,
      List.nil_append, ← hreport]
    simp only [line, linesText, List.map_cons, List.map_nil, String.join_cons, String.join_nil,
      String.append_assoc, String.append_empty, String.empty_append]
    rfl

theorem batchLines_clean {e : Path × List Diagnostic} (h : e.2 = []) (entries : List Entry) :
    batchLines (Entry.ofFound e :: entries) = batchLines entries := by
  rw [batchLines, List.filter_cons_of_neg]
  · rfl
  · simp [Entry.ofFound, h]

theorem batchLines_dirty {e : Path × List Diagnostic} (h : e.2 ≠ []) (entries : List Entry) :
    batchLines (Entry.ofFound e :: entries) =
      (Entry.ofFound e).lines ++ batchLines entries := by
  rw [batchLines, List.filter_cons_of_pos, List.flatMap_cons]
  · rfl
  · simp [Entry.ofFound, h]

/-- The blocks of a batch are the lines of its report. -/
theorem linesText_blocks (found : List (Path × List Diagnostic)) :
    linesText ((found.map reportOf).filterMap FileReport.block?) =
      linesText (batchLines (found.map Entry.ofFound)) := by
  induction found with
  | nil => rfl
  | cons e found ih =>
    rw [List.map_cons, List.map_cons]
    obtain ⟨hclean, hblock⟩ | ⟨hdirty, block, hblock, hlines⟩ := block?_reportOf e
    · rw [List.filterMap_cons_none hblock, ih, batchLines_clean hclean]
    · rw [List.filterMap_cons_some hblock, linesText_cons, ih, hlines, batchLines_dirty hdirty,
        linesText_append]

/-- Nothing was found in any file. -/
def allClean (found : List (Path × List Diagnostic)) : Bool := found.all fun e => e.2.isEmpty

theorem allClean_iff (found : List (Path × List Diagnostic)) :
    allClean found = true ↔ ∀ e ∈ found, e.2 = [] := by
  simp only [allClean, List.all_eq_true, List.isEmpty_iff]

theorem all_clean (found : List (Path × List Diagnostic)) :
    (found.map reportOf).all FileReport.clean = allClean found := by
  rw [List.all_map, allClean]
  exact congrArg found.all (funext clean_reportOf)

theorem blocks_eq_nil_iff (found : List (Path × List Diagnostic)) :
    (found.map reportOf).filterMap FileReport.block? = [] ↔ allClean found = true := by
  rw [List.filterMap_eq_nil_iff, List.forall_mem_map, allClean_iff]
  refine forall₂_congr fun e _ => ?_
  obtain ⟨hclean, hblock⟩ | ⟨hdirty, block, hblock, _⟩ := block?_reportOf e
  · simp only [hclean, hblock]
  · simp only [hdirty, hblock, reduceCtorEq]

/-- The exit code of a batch in which every file was checked. -/
def exitOf (found : List (Path × List Diagnostic)) : Nat :=
  if allClean found then exitClean else exitFindings

theorem exitOf_clean_iff (found : List (Path × List Diagnostic)) :
    exitOf found = exitClean ↔ ∀ e ∈ found, e.2 = [] := by
  rw [← allClean_iff, exitOf]
  cases allClean found <;> decide

theorem exitOf_findings_iff (found : List (Path × List Diagnostic)) :
    exitOf found = exitFindings ↔ ∃ e ∈ found, e.2 ≠ [] := by
  have hdirty : allClean found = false ↔ ∃ e ∈ found, e.2 ≠ [] := by
    simp only [allClean, List.all_eq_false, List.isEmpty_iff, ne_eq]
  rw [← hdirty, exitOf]
  cases allClean found <;> decide

/-- Findings in places that can be shown make a document. -/
theorem render_reports {found : List (Path × List Diagnostic)}
    (h : ∀ e ∈ found, e.2.all Diagnostic.isShowable = true) :
    Table.render ((found.map reportOf).map reportRow) [] .json =
      .ok [(batchDocument (found.map Entry.ofFound)).pretty] := by
  have hreports : ∀ r ∈ found.map reportOf, r.diagnostics.all Diagnostic.isShowable = true :=
    List.forall_mem_map.2 h
  have hwritten := rowsWritten_reports hreports
  have hrows : (found.map reportOf).map reportRow =
      ((found.map reportOf).map reportFields).map textEntries := by
    rw [List.map_map, List.map_map, List.map_map]
    rfl
  have hwritable : (Table.rowsValue ((found.map reportOf).map reportRow)).isWritable = true := by
    rw [hrows, Table.isWritable_rows hwritten.names]
    exact hwritten.written
  simp only [Table.render, Value.pretty, Value.written_eq, hwritable, if_true, toJson_rows]

theorem reportsOutput_json {found : List (Path × List Diagnostic)}
    (h : ∀ e ∈ found, e.2.all Diagnostic.isShowable = true) :
    reportsOutput (found.map reportOf) .json =
      .ok ⟨exitOf found, line (batchDocument (found.map Entry.ofFound)).pretty, ""⟩ := by
  have hline : linesText [(batchDocument (found.map Entry.ofFound)).pretty] =
      line (batchDocument (found.map Entry.ofFound)).pretty := by
    rw [linesText_cons]
    exact String.append_empty
  rw [reportsOutput, render_reports h, all_clean, ← hline]
  rfl

/-- The report of a batch goes where the log goes; a batch in which nothing was found has a message
instead. -/
theorem reportsOutput_text (found : List (Path × List Diagnostic)) :
    reportsOutput (found.map reportOf) .text =
      .ok ⟨exitOf found, if allClean found then line cleanMessage else "",
        linesText (batchLines (found.map Entry.ofFound))⟩ := by
  have hnil := blocks_eq_nil_iff found
  rw [← linesText_blocks, exitOf]
  cases hblocks : (found.map reportOf).filterMap FileReport.block? with
  | nil =>
    rw [if_pos (hnil.1 hblocks), if_pos (hnil.1 hblocks)]
    simp only [reportsOutput, FileReport.renderBatch?, hblocks]
    rfl
  | cons block blocks =>
    have hdirty : ¬ allClean found = true := by
      rw [← hnil, hblocks]
      exact List.cons_ne_nil block blocks
    rw [if_neg hdirty, if_neg hdirty, ← line_intercalate]
    simp only [reportsOutput, FileReport.renderBatch?, hblocks]

/-- What is said of a batch in either format. -/
def batchOutput (found : List (Path × List Diagnostic)) : DataFormat → Output
  | .json => ⟨exitOf found, line (batchDocument (found.map Entry.ofFound)).pretty, ""⟩
  | .text => ⟨exitOf found, if allClean found then line cleanMessage else "",
      linesText (batchLines (found.map Entry.ofFound))⟩

theorem reportsOutput_found {found : List (Path × List Diagnostic)}
    (h : ∀ e ∈ found, e.2.all Diagnostic.isShowable = true) (out : DataFormat) :
    reportsOutput (found.map reportOf) out = .ok (batchOutput found out) := by
  cases out with
  | json => exact reportsOutput_json h
  | text => exact reportsOutput_text found

theorem exit_batchOutput (found : List (Path × List Diagnostic)) (out : DataFormat) :
    (batchOutput found out).exit = exitOf found := by
  cases out <;> rfl

end Reports

namespace Cli

/-- Logging is set up, a checker is set up for the flags, and it checks every file. -/
structure Checked (w : World) (log : LogFlags) (paths : List Path) (flags : CheckerFlags)
    (found : List (Path × List Diagnostic)) : Prop where
  logs : ∀ name, ¬ (Job.mk log .text (.check paths flags)).Misformats w name
  checks : ∃ c w', buildChecker { w with journal := [] } flags = (.ok c, w') ∧
    c.Passes w' paths found

/-- The loggers that the flags ask for. -/
def loggersOf (w : World) (log : LogFlags) : Log.Loggers :=
  (Log.Loggers.unset.configure w (log.format.map .str) (log.level.map .named)).2

section Jobs

variable {w : World} {log : LogFlags} {paths : List Path} {flags : CheckerFlags}
  {found : List (Path × List Diagnostic)}

theorem perform_passes (log : LogFlags) {c : Checker} {w' : World}
    (hbuild : buildChecker w flags = (.ok c, w')) (h : c.Passes w' paths found) :
    ∃ w₂, ∀ out, (Job.mk log out (.check paths flags)).perform w =
      (.ok (batchOutput found out), w₂) := by
  obtain ⟨c', w₂, hcheck⟩ := Checker.checkFiles_passes h
  refine ⟨w₂, fun out => ?_⟩
  simp only [Job.perform, hbuild, hcheck, reportsOutput_found h.shown]

/-- What a batch fails with does not depend on the format. -/
theorem perform_fails (log : LogFlags)
    (h : ∀ c w' found, buildChecker w flags = (.ok c, w') → ¬ c.Passes w' paths found) :
    ∃ f w₂, ∀ out, (Job.mk log out (.check paths flags)).perform w = (.error f, w₂) := by
  cases hbuild : buildChecker w flags with
  | mk r w' =>
    cases r with
    | error f => exact ⟨f, w', fun out => by simp only [Job.perform, hbuild]⟩
    | ok c =>
      obtain ⟨⟨r, c', w₂⟩, hcheck⟩ : ∃ outcome, c.checkFiles w' paths = outcome := ⟨_, rfl⟩
      cases r with
      | error f => exact ⟨f, w₂, fun out => by simp only [Job.perform, hbuild, hcheck]⟩
      | ok rs =>
        obtain ⟨found, hpasses⟩ := Checker.passes_of_checkFiles paths hcheck
        exact absurd hpasses (h c w' found hbuild)

variable {args : List String}
  (hread : Request.read args = .ok (.job ⟨log, .text, .check paths flags⟩)) (timestamp : String)

include hread

/-- What is logged does not depend on the format. -/
theorem run_checked (h : Checked w log paths flags found) :
    ∃ journal, ∀ out, ((Job.mk log out (.check paths flags)).run w timestamp).1 =
      .ok ((batchOutput found out).logged
        ((loggersOf w log).lines timestamp journal)) := by
  obtain ⟨name, hmisformats, _⟩ | ⟨_, format, hformat⟩ := chosenFormat_cases (w := w) hread
  · exact absurd hmisformats (h.logs name)
  · obtain ⟨c, w', hbuild, hpasses⟩ := h.checks
    obtain ⟨w₂, hperform⟩ := perform_passes log hbuild hpasses
    obtain ⟨setup, hsetup⟩ := configure_flags log hformat
    simp only [Job.run, loggersOf, hsetup, hperform]
    exact ⟨_, fun out => rfl⟩

theorem run_unchecked (h : ∀ found, ¬ Checked w log paths flags found) :
    ∃ r : Except Fault Nat, r ≠ .ok exitClean ∧ r ≠ .ok exitFindings ∧ ∀ out,
      ((Job.mk log out (.check paths flags)).run w timestamp).1.map Output.exit = r := by
  have hfault : ∀ (f : Fault) code, (.error f : Except Fault Nat) ≠ .ok code := by
    intro f code h
    cases h
  have hfailure : ∀ code, code ≠ exitFailure → (.ok exitFailure : Except Fault Nat) ≠ .ok code :=
    fun code hne h => hne (Except.ok.inj h).symm
  obtain ⟨name, _, hformat⟩ | ⟨hlogs, format, hformat⟩ := chosenFormat_cases (w := w) hread
  · refine ⟨.error (.unknownChoice (Named.label LogFormat) name), hfault _ _, hfault _ _,
      fun out => ?_⟩
    exact congrArg (fun r => r.1.map Output.exit)
      (Job.run_unconfigured (j := ⟨log, out, .check paths flags⟩) timestamp hformat)
  · obtain ⟨f, w₂, hperform⟩ := perform_fails log
      fun c w' found hbuild hpasses => h found ⟨hlogs, c, w', hbuild, hpasses⟩
    obtain ⟨setup, hsetup⟩ := configure_flags log hformat
    simp only [Job.run, hsetup, hperform]
    cases isHandled f with
    | false => exact ⟨.error f, hfault _ _, hfault _ _, fun out => rfl⟩
    | true =>
      exact ⟨.ok exitFailure, hfailure _ (by decide), hfailure _ (by decide), fun out => rfl⟩

/-- A check ends in the same way in both formats, and the two exit codes for checked files tell what
was found in them. -/
theorem exit_run : ∃ r : Except Fault Nat,
    (∀ out, ((Job.mk log out (.check paths flags)).run w timestamp).1.map Output.exit = r) ∧
    ∀ code, code = exitClean ∨ code = exitFindings →
      (r = .ok code ↔ ∃ found, Checked w log paths flags found ∧ exitOf found = code) := by
  have hexit : ∀ found, Checked w log paths flags found → ∀ out,
      ((Job.mk log out (.check paths flags)).run w timestamp).1.map Output.exit =
        .ok (exitOf found) := by
    intro found h out
    obtain ⟨journal, hrun⟩ := run_checked hread timestamp h
    rw [hrun out, ← exit_batchOutput found out]
    rfl
  by_cases hchecked : ∃ found, Checked w log paths flags found
  · obtain ⟨found, h⟩ := hchecked
    refine ⟨_, hexit found h, fun code _ => ⟨fun hcode => ⟨found, h, Except.ok.inj hcode⟩, ?_⟩⟩
    rintro ⟨found', h', rfl⟩
    exact (hexit found h .text).symm.trans (hexit found' h' .text)
  · have hnone := not_exists.1 hchecked
    obtain ⟨r, hclean, hfindings, hr⟩ := run_unchecked hread timestamp hnone
    refine ⟨r, hr, fun code hcode => ⟨fun h => ?_, fun ⟨found, h, _⟩ => absurd h (hnone found)⟩⟩
    rcases hcode with rfl | rfl
    · exact absurd h hclean
    · exact absurd h hfindings

end Jobs

/-- Two command lines that ask for the same check, one for a report and one for a document, end in
the same way: with the same exit code, or with the same fault that gets past them. One exit code
tells that every file was checked and nothing was found, the other that every file was checked and
something was found in one. In both cases the document has an entry for every path, in order, and
the report is made from these entries; it comes after the lines of the log, which are the same. Only
if nothing was found is there a message instead. Every reader that takes as many digits as the
positions have reads the document. -/
theorem formats_agree {w : World} {log : LogFlags} {paths : List Path} {flags : CheckerFlags}
    {reportArgs documentArgs : List String}
    (hreport : Request.read reportArgs = .ok (.job ⟨log, .text, .check paths flags⟩))
    (hdocument : Request.read documentArgs = .ok (.job ⟨log, .json, .check paths flags⟩))
    (timestamp : String) :
    (run reportArgs w timestamp).1.map Output.exit =
      (run documentArgs w timestamp).1.map Output.exit ∧
    ((run reportArgs w timestamp).1.map Output.exit = .ok exitClean ↔
      ∃ found, Checked w log paths flags found ∧ ∀ e ∈ found, e.2 = []) ∧
    ((run reportArgs w timestamp).1.map Output.exit = .ok exitFindings ↔
      ∃ found, Checked w log paths flags found ∧ ∃ e ∈ found, e.2 ≠ []) ∧
    ∀ found, Checked w log paths flags found →
      found.map Prod.fst = paths ∧
      ∃ report document journal, (run reportArgs w timestamp).1 = .ok report ∧
        (run documentArgs w timestamp).1 = .ok document ∧
        (∀ d, (∀ e ∈ found, ∀ x ∈ e.2, (Shown.ofDiagnostic x).TakenBy d) →
          Json.readAs d document.out = .ok (batchDocument (found.map Entry.ofFound))) ∧
        document.err = linesText ((loggersOf w log).lines timestamp journal) ∧
        report.err = linesText ((loggersOf w log).lines timestamp journal) ++
          linesText (batchLines (found.map Entry.ofFound)) ∧
        report.out = if allClean found then line cleanMessage else "" := by
  have hrunReport : run reportArgs w timestamp =
      (Job.mk log .text (.check paths flags)).run w timestamp := by
    rw [run, hreport]
  have hrunDocument : run documentArgs w timestamp =
      (Job.mk log .json (.check paths flags)).run w timestamp := by
    rw [run, hdocument]
  obtain ⟨r, hr, hcode⟩ := exit_run (w := w) hreport timestamp
  rw [hrunReport, hrunDocument]
  refine ⟨by rw [hr, hr], ?_, ?_, ?_⟩
  · rw [hr, hcode exitClean (.inl rfl)]
    exact exists_congr fun found => and_congr_right fun _ => exitOf_clean_iff found
  · rw [hr, hcode exitFindings (.inr rfl)]
    exact exists_congr fun found => and_congr_right fun _ => exitOf_findings_iff found
  · intro found h
    obtain ⟨c, w', _, hpasses⟩ := h.checks
    obtain ⟨journal, hrun⟩ := run_checked hreport timestamp h
    refine ⟨hpasses.paths, _, _, journal, hrun .text, hrun .json, ?_, ?_, ?_, ?_⟩
    · intro d htaken
      refine readAs_document (List.forall_mem_map.2 fun e he => ?_)
      exact List.forall_mem_map.2 fun x hx => htaken e he x hx
    · exact String.append_empty
    · rfl
    · rfl

section Mixed

open Options

theorem ofFiles_absent {w : World} {files : List Path}
    (h : ∀ file ∈ files, w.tree.isFile (w.absolute file) = false) :
    LoadedConfiguration.ofFiles w files = (.ok .standard, w) := by
  induction files with
  | nil => rfl
  | cons file files ih =>
    have hfile : LoadedConfiguration.ofFile w file = (.ok none, w) := by
      rw [LoadedConfiguration.ofFile, h file List.mem_cons_self]
      rfl
    rw [LoadedConfiguration.ofFiles, hfile]
    exact ih fun f hf => h f (List.mem_cons_of_mem file hf)

/-- Without configuration files there is what holds by itself. -/
theorem loadConfiguration_absent {w : World}
    (h : ∀ file ∈ configurationFiles w none, w.tree.isFile (w.absolute file) = false) :
    loadConfiguration w none none = (.ok .standard, w) := by
  obtain ⟨root, hroot⟩ := projectRoot_none w
  rw [configurationFiles, hroot] at h
  simp only [loadConfiguration, hroot]
  exact ofFiles_absent h

/-- A file in which nothing is found and one with two findings, in a world in which the lenient
script of the library was read before. -/
def mixedTexts : List (Path × String) :=
  [(⟨0, ["a.js"]⟩, "'use strict';"), (⟨0, ["b.js"]⟩, "f()")]

def mixedWorld : World :=
  { Checker.bundleWorld with
    tree := ⟨(Checker.bundleFile.parts, .file (.bytes [])) ::
      mixedTexts.map fun e => (e.1.parts, .file (.text e.2))⟩ }

def mixedFound : List (Path × List Diagnostic) :=
  [(⟨0, ["a.js"]⟩, []),
    (⟨0, ["b.js"]⟩, [⟨0, 0, "Missing \"use strict\" statement.", "f()"⟩,
      ⟨0, 3, "Missing semicolon.", "f()"⟩])]

def noFlags : CheckerFlags := ⟨none, [], none, none⟩

theorem buildChecker_mixed : ∃ journal, buildChecker mixedWorld noFlags =
    (.ok (Checker.createdWith []), mixedWorld.log journal) := by
  have hload : loadConfiguration mixedWorld noFlags.config none = (.ok .standard, mixedWorld) :=
    loadConfiguration_absent (by decide +kernel)
  have htokens : readAssignments noFlags.options = .ok [] := rfl
  have hstore : (Store.create .jshint []).1 = .ok (Checker.createdWith []).store := rfl
  obtain ⟨journal, hcreate⟩ := Checker.create_createdWith mixedWorld none rfl hstore
  obtain ⟨journal', hbuild⟩ := buildChecker_create_ok hload nofun htokens hcreate
  refine ⟨journal ++ journal', hbuild.trans ?_⟩
  simp only [World.log, List.append_assoc]

theorem checked_mixed :
    Checked mixedWorld ⟨none, none⟩ (mixedTexts.map Prod.fst) noFlags mixedFound := by
  refine ⟨?_, ?_⟩
  · rintro name ⟨_, hset, _⟩
    cases hset
  · obtain ⟨journal, hbuild⟩ := buildChecker_mixed
    have htexts : ∀ e ∈ mixedTexts, (mixedWorld.log journal).readText e.1 = .ok e.2 ∧
        Text.width e.2.toList + 1 < 10 ^ Digits.limit := by
      have hread : ∀ e ∈ mixedTexts, (mixedWorld.log journal).readText e.1 = .ok e.2 :=
        List.forall_mem_cons.2 ⟨rfl, List.forall_mem_cons.2 ⟨rfl, nofun⟩⟩
      have hnarrow : ∀ e ∈ mixedTexts, Text.width e.2.toList + 1 < 10 ^ 2 := by decide
      have hpow : 10 ^ 2 ≤ 10 ^ Digits.limit := Nat.pow_le_pow_right (by decide) (by decide)
      exact fun e he => ⟨hread e he, Nat.lt_of_lt_of_le (hnarrow e he) hpow⟩
    have hfound : mixedFound = mixedTexts.map fun e => (e.1, bundledDiagnostics .jshint
        (truth (Checker.createdWith []).store.snapshot) e.2) := by
      decide +kernel
    rw [hfound]
    have hbundle : (Checker.createdWith []).OnBundle (mixedWorld.log journal) :=
      Checker.onBundle_kept rfl (by decide) rfl rfl rfl rfl
    exact ⟨_, _, hbuild, Checker.passes_bundled hbundle Checker.written_createdWith htexts⟩

theorem formats_agree_mixed :
    ∃ report document journal,
      (run ["check", "a.js", "b.js"] mixedWorld "").1 = .ok report ∧
      (run ["check", "a.js", "b.js", "--out", "json"] mixedWorld "").1 = .ok document ∧
      report.exit = exitFindings ∧ document.exit = exitFindings ∧ report.out = "" ∧
      Json.read document.out = .ok (batchDocument (mixedFound.map Entry.ofFound)) ∧
      document.err = linesText ((loggersOf mixedWorld ⟨none, none⟩).lines "" journal) ∧
      report.err = linesText ((loggersOf mixedWorld ⟨none, none⟩).lines "" journal) ++ linesText
        ["", "In [b.js]:", "Error at line 1 character 1: Missing \"use strict\" statement.",
          "  f()", "Error at line 1 character 4: Missing semicolon.", "  f()", ""] := by
  have hreport : Request.read ["check", "a.js", "b.js"] =
      .ok (.job ⟨⟨none, none⟩, .text, .check (mixedTexts.map Prod.fst) noFlags⟩) := rfl
  have hdocument : Request.read ["check", "a.js", "b.js", "--out", "json"] =
      .ok (.job ⟨⟨none, none⟩, .json, .check (mixedTexts.map Prod.fst) noFlags⟩) := rfl
  obtain ⟨hsame, _, hfindings, hfound⟩ := formats_agree (w := mixedWorld) hreport hdocument ""
  obtain ⟨_, report, document, journal, hrunReport, hrunDocument, hread, herr, hlines, hout⟩ :=
    hfound mixedFound checked_mixed
  have hexit := hfindings.2 ⟨mixedFound, checked_mixed, by decide⟩
  have hexit' := hsame.symm.trans hexit
  rw [hrunReport] at hexit
  rw [hrunDocument] at hexit'
  have hshown : batchLines (mixedFound.map Entry.ofFound) =
      ["", "In [b.js]:", "Error at line 1 character 1: Missing \"use strict\" statement.",
        "  f()", "Error at line 1 character 4: Missing semicolon.", "  f()", ""] := by
    decide +kernel
  rw [hshown] at hlines
  exact ⟨report, document, journal, hrunReport, hrunDocument, Except.ok.inj hexit,
    Except.ok.inj hexit', hout, hread .host (by decide), herr, hlines⟩

end Mixed

end Cli

end ScriptLint
