import ScriptLint.Engine.Digest
import ScriptLint.FileTree
import ScriptLint.Proofs.Findings
import ScriptLint.Proofs.Runs

/-!
# ScriptLint.Proofs.BundledRun

The two scripts of the library never fail: whatever the text, and whatever options are handed to it,
a check with one of them ends, leaves no record out, and finds only what lies in the text.

* `bundledScript`: a script of the library as it is loaded
* `trailRecord_clean`: what an edition leaves behind is never left out
* `runIsolated_unwritten`: options that are not written
* `bundled_run`: a check with a script of the library
-/

namespace ScriptLint

open Text Json Engine

section Bundle

/-- The text of a script of the library. -/
def bundledText : Variant → String
  | .jslint => Bundle.lintText
  | .jshint => Bundle.hintText

/-- A script of the library, read from `path`. -/
def bundledScript (v : Variant) (path : Path) : Script :=
  ⟨v, path, bundledText v, Digest.textDigest (bundledText v), ScriptText.programOf (bundledText v)⟩

theorem textOf_take {l : String} {ls : List String} {n : Nat} (h : n ≤ l.toList.length) :
    (Bundle.textOf (l :: ls)).toList.take n = l.toList.take n := by
  rw [Bundle.textOf, List.map_cons, String.join_cons, String.append_assoc, String.toList_append,
    List.take_append_of_le_length h]

theorem hintText_ne_lintText : Bundle.hintText ≠ Bundle.lintText := by
  intro h
  -- the two texts differ in their first line
  have hlint : Bundle.lintText.toList.take 24 = "// jslintr baseline JSLi".toList :=
    textOf_take (by decide)
  have hhint : Bundle.hintText.toList.take 24 = "// jslintr baseline JSHi".toList :=
    textOf_take (by decide)
  rw [h, hlint] at hhint
  exact absurd hhint (by decide)

theorem programOf_bundled (v : Variant) :
    ScriptText.programOf (bundledText v) =
      match v with
      | .jslint => .lint
      | .jshint => .hint := by
  cases v with
  | jslint => exact if_pos rfl
  | jshint =>
    rw [bundledText, ScriptText.programOf, if_neg hintText_ne_lintText, if_pos rfl]

end Bundle

section Segments

theorem width_line_le (cs : List Char) : ∀ l ∈ lines cs, width l ≤ width cs := by
  fun_induction lines cs with
  | case1 => simp
  | case2 cs ih =>
    intro l hl
    rcases List.mem_cons.1 hl with rfl | hl
    · exact Nat.zero_le _
    · have := ih l hl
      rw [width_cons, width_cons]
      omega
  | case3 c cs _ _ ih =>
    intro l hl
    rw [width_cons]
    rcases List.mem_cons.1 hl with rfl | hl
    · exact Nat.zero_le _
    · have := ih l hl
      omega
  | case4 c cs _ _ ih =>
    intro l hl
    obtain ⟨first, rest, hlines⟩ := List.exists_cons_of_ne_nil (lines_ne_nil cs)
    rw [hlines] at hl ih
    rw [width_cons]
    rcases List.mem_cons.1 hl with rfl | hl
    · have := ih first List.mem_cons_self
      rw [width_cons]
      omega
    · have := ih l (List.mem_cons_of_mem _ hl)
      omega

/-- A text has at most one line more than it has columns. -/
theorem length_lines_le (cs : List Char) : (lines cs).length ≤ width cs + 1 := by
  fun_induction lines cs with
  | case1 => simp
  | case2 cs ih =>
    have := Analysis.units_pos '\r'
    rw [List.length_cons, width_cons, width_cons]
    omega
  | case3 c cs _ _ ih =>
    have := Analysis.units_pos c
    rw [List.length_cons, width_cons]
    omega
  | case4 c cs _ _ ih =>
    have := Analysis.units_pos c
    have hlength : (consFirst c (lines cs)).length = (lines cs).length := by
      obtain ⟨first, rest, hlines⟩ := List.exists_cons_of_ne_nil (lines_ne_nil cs)
      rw [hlines]
      rfl
    rw [hlength, width_cons]
    omega

end Segments

section Records

open Analysis

/-- The finding that a diagnostic is made of. -/
def ofFinding (f : Finding) : Diagnostic := ⟨f.line, f.column, f.reason, String.ofList f.evidence⟩

theorem document_findingRecord (f : Finding) :
    (findingRecord f).document =
      .obj [("id", .str "(error)"), ("line", .int f.line), ("character", .int f.column),
        ("reason", .str f.reason), ("evidence", .str (String.ofList f.evidence))] := by
  have hkeys : ["id", "line", "character", "reason", "evidence"].Nodup := by decide
  simp only [findingRecord, Datum.document, Datum.fieldDocuments, count]
  exact congrArg Json.obj (Mapping.ofPairs_nodup hkeys)

theorem diagnostic?_findingRecord (f : Finding) :
    (findingRecord f).document.diagnostic? = some (ofFinding f) := by
  rw [document_findingRecord]
  rfl

theorem fits_findingRecord {f : Finding} (hline : f.line < 10 ^ Digits.limit)
    (hcolumn : f.column < 10 ^ Digits.limit) : (findingRecord f).Fits := by
  simp only [findingRecord, Datum.Fits, Datum.FieldsFit, true_and, and_true]
  exact ⟨fits_count hline, fits_count hcolumn⟩

/-- A finding as a record, and giving up as a null. -/
def trailRecord : Option Finding → Datum
  | some f => findingRecord f
  | none => .null

theorem trailRecord_clean (f : Option Finding) :
    (trailRecord f).document.isMalformed = false := by
  cases f with
  | none => rfl
  | some f => exact isMalformed_of_diagnostic? (diagnostic?_findingRecord f)

theorem diagnostics_trail (fs : List (Option Finding)) :
    ((fs.map trailRecord).map Datum.document).filterMap diagnostic? =
      (fs.filterMap id).map ofFinding := by
  induction fs with
  | nil => rfl
  | cons f fs ih =>
    cases f with
    | none => exact ih
    | some f =>
      rw [List.map_cons, List.map_cons, trailRecord, List.filterMap_cons_some
        (diagnostic?_findingRecord f), ih]
      rfl

/-- What a script of the library leaves behind. -/
def bundledTrail (v : Variant) (on : Switches) (source : List Char) : List (Option Finding) :=
  match v with
  | .jslint => Lint.trail on source
  | .jshint => (Hint.findings on source).map some

theorem bundledTrail_located (v : Variant) (on : Switches) (source : List Char) :
    ∀ f ∈ (bundledTrail v on source).filterMap id, LocatedIn 0 (lines source) f := by
  intro f hf
  cases v with
  | jslint => exact Lint.findings_located on source f ((Lint.trail_sublist on source).mem hf)
  | jshint =>
    rw [bundledTrail, filterMap_map_some] at hf
    exact Hint.findings_located on source f hf

theorem bundledTrail_sorted (v : Variant) (on : Switches) (source : List Char) :
    ((bundledTrail v on source).filterMap id).Pairwise fun f g => f.line ≤ g.line := by
  cases v with
  | jslint => exact (Lint.findings_sorted on source).sublist (Lint.trail_sublist on source)
  | jshint =>
    rw [bundledTrail, filterMap_map_some]
    exact Hint.findings_sorted on source

theorem fits_located {source : List Char} {f : Finding} (h : LocatedIn 0 (lines source) f)
    (hwidth : width source < 10 ^ Digits.limit) : (findingRecord f).Fits := by
  obtain ⟨k, segment, hget, hat⟩ := h
  have hmem := List.mem_of_getElem? hget
  have hk := (List.getElem?_eq_some_iff.1 hget).1
  have hlines := length_lines_le source
  have hsegment := width_line_le source segment hmem
  have hline := hat.line_eq
  have hcolumn := hat.column_le
  exact fits_findingRecord (by omega) (by omega)

theorem bundled_program (v : Variant) (path : Path) :
    (bundledScript v path).program = .callable v.entryPoint fun o source =>
      .left (some (trailRecords (bundledTrail v o.switches source))) := by
  rw [bundledScript, programOf_bundled]
  cases v with
  | jslint => rfl
  | jshint => rfl

end Records

/-- Options of finite values that are written are handed over, with the text up to its first NUL. -/
theorem handOver_untilNul {options : List (String × Value)} (hwritten : allWritable options = true)
    (h : ∀ e ∈ options, e.2.isFinite = true) (text : String) :
    ∃ o, handOver options text = .ok (o, untilNul text.toList) := by
  have hall : ((Mapping.ofPairs options).all fun e => e.2.toJson.isFinite) = true := by
    rw [List.all_eq_true]
    intro e he
    exact Value.isFinite_toJson e.2 (h e (Mapping.mem_ofPairs he))
  have hassign := isOk_assignValues (Mapping.ofPairs options) .empty
  rw [hall] at hassign
  obtain ⟨o, ho⟩ := isOk_iff.1 hassign
  refine ⟨o, ?_⟩
  rw [handOver_eq, if_pos hwritten, ho]

theorem handOver_finite {options : List (String × Value)} (hwritten : allWritable options = true)
    (h : ∀ e ∈ options, e.2.isFinite = true) {text : String} (hnul : '\x00' ∉ text.toList) :
    ∃ o, handOver options text = .ok (o, text.toList) := by
  obtain ⟨o, ho⟩ := handOver_untilNul hwritten h text
  rw [untilNul_of_not_mem hnul] at ho
  exact ⟨o, ho⟩

/-- One option that is not written keeps a script of the library from being called. -/
theorem runIsolated_unwritten {options : List (String × Value)}
    (hunwritten : allWritable options = false) (v : Variant) (path : Path) (text : String)
    {limits : Limits} (hlimits : limits.issue? = none) (policy : Policy) :
    (runIsolated (bundledScript v path) options text limits policy).1 = .error .unwritable := by
  rw [runIsolated_eq hlimits, Context.run_eq rfl rfl,
    evaluate_unwritten (bundled_program v path) hunwritten]

/-- A check with a script of the library ends well under either policy, with nothing left out, if
all options are written; otherwise it fails. Every finding names a line of the text and repeats it as
evidence, points into it, and gives a reason in printable characters, so on one line; findings come
in the order of lines. The options may hold any values without special numbers. A text has to be
narrower than the least number with too many digits for the reader of records, which no text that
fits in memory reaches. -/
theorem bundled_run (v : Variant) (path : Path) (options : List (String × Value)) (text : String)
    (limits : Limits) (hlimits : limits.issue? = none)
    (hfinite : ∀ e ∈ options, e.2.isFinite = true) (hnul : '\x00' ∉ text.toList)
    (hwidth : width text.toList < 10 ^ Digits.limit) :
    ((∀ e ∈ options, e.2.isWritable = true) →
      ∃ ds : List Diagnostic,
        (∀ policy, (runIsolated (bundledScript v path) options text limits policy).1 =
          .ok ⟨v, ds, 0⟩) ∧
        (∀ d ∈ ds, ∃ (k : Nat) (segment : List Char), (lines text.toList)[k]? = some segment ∧
          d.line = k ∧ d.evidence = String.ofList segment ∧ 0 ≤ d.character ∧
          d.character ≤ width segment ∧ d.reason ≠ "" ∧ Analysis.Printable d.reason.toList) ∧
        ds.Pairwise fun d e => d.line ≤ e.line) ∧
    ((∃ e ∈ options, e.2.isWritable = false) →
      ∀ policy, (runIsolated (bundledScript v path) options text limits policy).1 =
        .error .unwritable) := by
  constructor
  · intro hwritten
    obtain ⟨o, hhand⟩ := handOver_finite (allWritable_iff.2 hwritten) hfinite hnul
    have hlocated := bundledTrail_located v o.switches text.toList
    refine ⟨((bundledTrail v o.switches text.toList).filterMap id).map ofFinding, ?_, ?_, ?_⟩
    · intro policy
      have heval : evaluate (bundledScript v path) options text =
          .ok (Datum.arr ((bundledTrail v o.switches text.toList).map trailRecord)).stringify :=
        evaluate_arr (bundled_program v path) hhand rfl
      have hfit : ∀ x ∈ (bundledTrail v o.switches text.toList).map trailRecord, x.Fits := by
        intro x hx
        obtain ⟨f, hf, rfl⟩ := List.mem_map.1 hx
        cases f with
        | none => trivial
        | some f =>
          exact fits_located (hlocated f (List.mem_filterMap.2 ⟨some f, hf, rfl⟩)) hwidth
      have hclean : ∀ x ∈ (bundledTrail v o.switches text.toList).map trailRecord,
          x.document.isMalformed = false := by
        intro x hx
        obtain ⟨f, _, rfl⟩ := List.mem_map.1 hx
        exact trailRecord_clean f
      rw [runIsolated_eq hlimits, Context.run_arr rfl rfl heval hfit hclean, diagnostics_trail]
      rfl
    · intro d hd
      obtain ⟨f, hf, rfl⟩ := List.mem_map.1 hd
      obtain ⟨k, segment, hget, hat⟩ := hlocated f hf
      refine ⟨k, segment, hget, ?_, ?_, Int.natCast_nonneg _, ?_, ?_, hat.reason_ok.2⟩
      · show (f.line : Int) = k
        rw [hat.line_eq, Nat.zero_add]
      · rw [ofFinding, hat.evidence_eq]
      · exact Int.ofNat_le.2 hat.column_le
      · intro h
        have hreason := congrArg String.toList h
        exact hat.reason_ok.1 hreason
    · refine (bundledTrail_sorted v o.switches text.toList).map ofFinding ?_
      intro f g h
      exact Int.ofNat_le.2 h
  · exact fun h => runIsolated_unwritten (allWritable_eq_false_iff.2 h) v path text hlimits

theorem bundled_run_eval :
    ∃ ds : List Diagnostic,
      (∀ policy, (runIsolated (bundledScript .jshint (Path.parse "jshint.js"))
        [("curly", .bool true), ("indent", .int 4)] "eval(x)\r\n" Limits.none policy).1 =
        .ok ⟨.jshint, ds, 0⟩) ∧
      ds.Pairwise fun d e => d.line ≤ e.line := by
  have hwidth : width "eval(x)\r\n".toList < 10 ^ Digits.limit :=
    Nat.lt_of_lt_of_le (by decide : _ < 10 ^ 1) (Nat.pow_le_pow_right (by decide) (by decide))
  obtain ⟨ds, hrun, _, hsorted⟩ := (bundled_run .jshint (Path.parse "jshint.js")
    [("curly", .bool true), ("indent", .int 4)] "eval(x)\r\n" Limits.none (by decide)
    (by simp [Value.isFinite]) (by decide) hwidth).1 (by decide)
  exact ⟨ds, hrun, hsorted⟩

/-- An option that is an integer with too many digits has no special number in it, and keeps the
check of an empty text from ending. -/
theorem runIsolated_overlong :
    (Value.int Digits.overlong).isFinite = true ∧
    ∀ policy, (runIsolated (bundledScript .jshint (Path.parse "jshint.js"))
      [("n", .int Digits.overlong)] "" Limits.none policy).1 = .error .unwritable := by
  have hunwritten : allWritable [("n", .int Digits.overlong)] = false := by
    rw [allWritable, List.all_cons, Value.isWritable_int, Digits.isWritable_overlong]
    rfl
  exact ⟨rfl, runIsolated_unwritten hunwritten .jshint _ "" (by decide)⟩

end ScriptLint
