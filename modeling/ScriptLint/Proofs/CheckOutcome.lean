import ScriptLint.Checker
import ScriptLint.Proofs.Runs
import ScriptLint.Proofs.Scripts

/-!
# ScriptLint.Proofs.CheckOutcome

A check that finds nothing means that a script was run to its end and found nothing.

* `Checker.Runs`: the script that a check runs
* `Script.Leaves`: a script runs to its end
* `verdict`: what the errors that it leaves amount to
* `Checker.Escapes`: failures of a check that are neither the want of a script nor its own
* `check_outcome`: the outcome of a check is the verdict, or one of these
-/

namespace ScriptLint

open Engine Json

namespace Datum

mutual

/-- A value that a document can hold: its numbers are finite, and those kept apart are exact. -/
def isFinite : Datum → Bool
  | .whole i => decide (i.natAbs ≤ exactLimit)
  | .real x => x.isFinite
  | .arr xs => itemsFinite xs
  | .obj ps => propsFinite ps
  | _ => true

def itemsFinite : List Datum → Bool
  | [] => true
  | x :: xs => isFinite x && itemsFinite xs

def propsFinite : List (String × Datum) → Bool
  | [] => true
  | (_, x) :: ps => isFinite x && propsFinite ps

end

mutual

theorem fits_isFinite : ∀ x : Datum, x.isFinite = true → x.Fits
  | .null, _ => by simp only [Fits]
  | .bool _, _ => by simp only [Fits]
  | .whole i, h => by
    rw [isFinite, decide_eq_true_eq] at h
    rw [Fits]
    exact length_exact h
  | .real _, _ => by simp only [Fits]
  | .str _, _ => by simp only [Fits]
  | .arr xs, h => by
    rw [isFinite] at h
    rw [Fits]
    exact allFit_itemsFinite xs h
  | .obj ps, h => by
    rw [isFinite] at h
    rw [Fits]
    exact fieldsFit_propsFinite ps h

theorem allFit_itemsFinite : ∀ xs : List Datum, itemsFinite xs = true → AllFit xs
  | [], _ => by simp only [AllFit]
  | x :: xs, h => by
    rw [itemsFinite, Bool.and_eq_true] at h
    rw [AllFit]
    exact ⟨fits_isFinite x h.1, allFit_itemsFinite xs h.2⟩

theorem fieldsFit_propsFinite : ∀ ps : List (String × Datum),
    propsFinite ps = true → FieldsFit ps
  | [], _ => by simp only [FieldsFit]
  | (_, x) :: ps, h => by
    rw [propsFinite, Bool.and_eq_true] at h
    rw [FieldsFit]
    exact ⟨fits_isFinite x h.1, fieldsFit_propsFinite ps h.2⟩

end

/-- A document that is neither null nor a list holds no records. -/
theorem decodeRecords_other {x : Datum} (hfits : x.Fits) (hnull : x.document ≠ .null)
    (harr : ∀ records, x.document ≠ .arr records) :
    ∃ e, decodeRecords x.stringify = .error e := by
  rw [decodeRecords_stringify hfits]
  cases h : x.document with
  | null => exact absurd h hnull
  | arr records => exact absurd h (harr records)
  | _ => exact ⟨_, rfl⟩

theorem document_number {x : Binary64} (h : x.isFinite = true) :
    x.scriptDocument ≠ .null ∧ ∀ records, x.scriptDocument ≠ .arr records := by
  cases x with
  | nan => cases h
  | infinite negative => cases h
  | finite negative m e =>
    cases m with
    | zero => simp [Binary64.scriptDocument]
    | succ m =>
      simp only [Binary64.scriptDocument]
      split <;> simp

end Datum

/-- What the errors that a script leaves amount to. -/
inductive Verdict where
  | clean
  | findings
  /-- There are findings, but the positions of some cannot be shown. -/
  | unshown
  | unusable
  deriving DecidableEq, Repr

/-- The findings among the records that a script leaves. -/
def foundIn (xs : List Datum) : List Diagnostic := (xs.map Datum.document).filterMap diagnostic?

/-- No errors, and what counts as false, are clean. A list has findings if one of its items is a
record with all that a finding needs, and is clean without one. Nothing else is usable. -/
def verdict : Option Datum → Verdict
  | none => .clean
  | some d =>
    if d.truthy then
      match d with
      | .arr xs =>
        if xs.any (·.document.isRecord) then
          if (foundIn xs).all Diagnostic.isShowable then .findings else .unshown
        else .clean
      | _ => .unusable
    else .clean

namespace Collector

/-- What is gathered from one received text. -/
def gathered (engine : Variant) (payload : String) : Except Fault (List Diagnostic) :=
  ((new engine .skip).receive payload).collect.1

variable {engine : Variant}

theorem gathered_ok {payload : String} {records : List Json}
    (h : decodeRecords payload = .ok records) :
    gathered engine payload = .ok (records.filterMap diagnostic?) := by
  obtain ⟨journal, hharvest⟩ := harvest_skip engine records 0
  rw [gathered, collect_one h hharvest]

theorem gathered_error {payload : String} {e : PayloadError}
    (h : decodeRecords payload = .error e) :
    ∃ detail, gathered engine payload = .error (.engineFailed engine.text detail) := by
  have hgather : gather engine .skip [payload] =
      (.none, some (.engineFailed engine.text ("unreadable diagnostics payload: " ++ e.message))) := by
    rw [gather, h]
  refine ⟨"unreadable diagnostics payload: " ++ e.message, ?_⟩
  simp [gathered, collect, new, receive, hgather]

theorem gathered_arr {xs : List Datum} (h : (Datum.arr xs).isFinite = true) :
    gathered engine (Datum.arr xs).stringify = .ok (foundIn xs) := by
  refine gathered_ok ?_
  rw [decodeRecords_stringify (Datum.fits_isFinite _ h), Datum.document, Datum.documents_eq_map]

theorem foundIn_eq_nil {xs : List Datum} :
    foundIn xs = [] ↔ xs.any (·.document.isRecord) = false := by
  rw [foundIn, List.filterMap_eq_nil_iff, List.any_eq_false]
  simp only [List.mem_map, forall_exists_index, and_imp, forall_apply_eq_imp_iff₂,
    ← isSome_diagnostic?, Option.not_isSome_iff_eq_none]

theorem payload_falsy {errors : Option Datum} (h : ∀ d ∈ errors, d.truthy = false) :
    payload errors = "[]" := by
  cases errors with
  | none => rfl
  | some d => simp [payload, h d rfl]

variable (engine)

/-- Clean errors give no findings. -/
theorem gathered_clean {errors : Option Datum} (hfinite : ∀ d ∈ errors, d.isFinite = true)
    (h : verdict errors = .clean) : gathered engine (payload errors) = .ok [] := by
  have hdecode : decodeRecords "[]" = .ok [] := rfl
  have hnone : gathered engine "[]" = .ok [] := gathered_ok hdecode
  cases errors with
  | none => exact hnone
  | some d =>
    cases htruthy : d.truthy with
    | false =>
      rw [payload_falsy (by simpa using htruthy)]
      exact hnone
    | true =>
      rw [payload, if_pos htruthy]
      cases d with
      | arr xs =>
        have hany : xs.any (·.document.isRecord) = false := by
          simp only [verdict, Datum.truthy, if_true] at h
          split at h
          · split at h <;> cases h
          · rename_i hany
            exact eq_false_of_ne_true hany
        rw [gathered_arr (hfinite _ rfl), foundIn_eq_nil.2 hany]
      | _ => simp [verdict, htruthy] at h

/-- Errors with findings give some. -/
theorem gathered_findings {errors : Option Datum} (hfinite : ∀ d ∈ errors, d.isFinite = true)
    (h : verdict errors = .findings) :
    ∃ ds, ds ≠ [] ∧ gathered engine (payload errors) = .ok ds ∧
      ds.all Diagnostic.isShowable = true := by
  cases errors with
  | none => cases h
  | some d =>
    cases htruthy : d.truthy with
    | false => simp [verdict, htruthy] at h
    | true =>
      cases d with
      | arr xs =>
        simp only [verdict, Datum.truthy, if_true] at h
        split at h
        · rename_i hany
          split at h
          · rename_i hshown
            refine ⟨_, fun hnil => ?_, gathered_arr (hfinite _ rfl), hshown⟩
            exact Bool.false_ne_true ((foundIn_eq_nil.1 hnil).symm.trans hany)
          · cases h
        · cases h
      | _ => simp [verdict, htruthy] at h

theorem gathered_unshown {errors : Option Datum} (hfinite : ∀ d ∈ errors, d.isFinite = true)
    (h : verdict errors = .unshown) :
    ∃ ds, gathered engine (payload errors) = .ok ds ∧ ds.all Diagnostic.isShowable = false := by
  cases errors with
  | none => cases h
  | some d =>
    cases htruthy : d.truthy with
    | false => simp [verdict, htruthy] at h
    | true =>
      cases d with
      | arr xs =>
        simp only [verdict, Datum.truthy, if_true] at h
        split at h
        · split at h
          · cases h
          · rename_i hshown
            exact ⟨_, gathered_arr (hfinite _ rfl), eq_false_of_ne_true hshown⟩
        · cases h
      | _ => simp [verdict, htruthy] at h

/-- Unusable errors are a failure of the engine. -/
theorem gathered_unusable {errors : Option Datum} (hfinite : ∀ d ∈ errors, d.isFinite = true)
    (h : verdict errors = .unusable) :
    ∃ detail, gathered engine (payload errors) = .error (.engineFailed engine.text detail) := by
  cases errors with
  | none => cases h
  | some d =>
    cases htruthy : d.truthy with
    | false => simp [verdict, htruthy] at h
    | true =>
      have hfits := Datum.fits_isFinite d (hfinite d rfl)
      -- what counts as true and is no list is written as something that is neither null nor a list
      have hother : d.document ≠ .null ∧ ∀ records, d.document ≠ .arr records := by
        cases d with
        | arr xs =>
          simp only [verdict, htruthy, if_true] at h
          split at h
          · split at h <;> cases h
          · cases h
        | null => cases htruthy
        | real x => exact Datum.document_number (hfinite _ rfl)
        | _ => simp [Datum.document]
      obtain ⟨e, hdecode⟩ := Datum.decodeRecords_other hfits hother.1 hother.2
      rw [payload, if_pos htruthy]
      exact gathered_error hdecode

end Collector

namespace Engine

variable {s : Script} {options : List (String × Value)} {text : String} {errors : Option Datum}

/-- A script runs to its end: every option is written and can be read, the script defines its entry
point, and the call returns and leaves its errors. -/
structure Script.Leaves (s : Script) (options : List (String × Value)) (text : String)
    (errors : Option Datum) : Prop where
  written : ∀ e ∈ options, e.2.isWritable = true
  readable : ∀ e ∈ Mapping.ofPairs options, ∃ t d, e.2.encode = .ok t ∧ Datum.parse t = .ok d
  returned : ∃ call, s.program = .callable s.variant.entryPoint call ∧
    ∀ o source, handOver options text = .ok (o, source) → call o source = .left errors

theorem isOk_handOver_iff :
    (handOver options text).isOk = true ↔
      (∀ e ∈ options, e.2.isWritable = true) ∧
      ∀ e ∈ Mapping.ofPairs options, ∃ t d, e.2.encode = .ok t ∧ Datum.parse t = .ok d := by
  rw [isOk_handOver, Bool.and_eq_true, List.all_eq_true, allWritable_iff]
  simp only [← isOk_parse_encode, isOk_iff, Value.encode_eq_ok_iff]
  constructor
  · rintro ⟨hwritten, hread⟩
    refine ⟨hwritten, fun e he => ?_⟩
    obtain ⟨d, hd⟩ := hread e he
    exact ⟨_, d, ⟨hwritten e (Mapping.mem_ofPairs he), rfl⟩, hd⟩
  · rintro ⟨hwritten, hread⟩
    refine ⟨hwritten, fun e he => ?_⟩
    obtain ⟨_, d, ⟨_, rfl⟩, hd⟩ := hread e he
    exact ⟨d, hd⟩

theorem Script.Leaves.handed (h : s.Leaves options text errors) :
    ∃ o source, handOver options text = .ok (o, source) := by
  obtain ⟨⟨o, source⟩, hhand⟩ := isOk_iff.1 (isOk_handOver_iff.2 ⟨h.written, h.readable⟩)
  exact ⟨o, source, hhand⟩

theorem Script.Leaves.evaluate_eq (h : s.Leaves options text errors) :
    evaluate s options text = .ok (payload errors) := by
  obtain ⟨call, hprogram, hcall⟩ := h.returned
  obtain ⟨o, source, hhand⟩ := h.handed
  exact evaluate_left hprogram hhand (hcall o source hhand)

theorem Script.Leaves.eq_reporting {x : Datum} (h : s.Leaves options text errors)
    (hprogram : s.program = .reporting s.variant.entryPoint x) : errors = some x := by
  obtain ⟨call, hcallable, hcall⟩ := h.returned
  obtain ⟨o, source, hhand⟩ := h.handed
  have hleft := hcall o source hhand
  rw [hprogram] at hcallable
  cases hcallable
  cases hleft
  rfl

/-- A script that could be called is not given its options: one of them is not written. -/
structure Script.Withholds (s : Script) (options : List (String × Value)) : Prop where
  callable : ∃ call, s.program = .callable s.variant.entryPoint call
  unwritten : ∃ e ∈ options, e.2.isWritable = false

theorem Script.Withholds.evaluate_eq (h : s.Withholds options) :
    evaluate s options text = .error .unwritable := by
  obtain ⟨call, hprogram⟩ := h.callable
  exact evaluate_unwritten hprogram (allWritable_eq_false_iff.2 h.unwritten)

/-- A script that does not run to its end is a failure of the engine, unless an option is not
written. -/
theorem evaluate_failed (h : ¬ ∃ errors, s.Leaves options text errors) :
    (∃ detail, evaluate s options text = .error (.engineFailed s.variant.text detail)) ∨
      s.Withholds options := by
  rw [evaluate]
  cases hprogram : s.program with
  | broken detail => exact .inl ⟨detail, rfl⟩
  | inert => exact .inl ⟨_, rfl⟩
  | callable entry call =>
    by_cases hentry : entry = s.variant.entryPoint
    · subst hentry
      simp only [ne_eq, not_true_eq_false, if_false]
      cases hwritten : allWritable options with
      | false => exact .inr ⟨⟨call, hprogram⟩, allWritable_eq_false_iff.1 hwritten⟩
      | true =>
        refine .inl ?_
        cases hhand : handOver options text with
        | error obstacle =>
          rw [handOver_eq, if_pos hwritten] at hhand
          split at hhand
          · cases hhand
          · cases hhand
            exact ⟨_, rfl⟩
        | ok r =>
          obtain ⟨o, source⟩ := r
          simp only
          cases hcall : call o source with
          | threw detail => exact ⟨detail, rfl⟩
          | unwritable => exact ⟨_, rfl⟩
          | left errors =>
            obtain ⟨hall, hread⟩ := isOk_handOver_iff.1 (isOk_iff.2 ⟨_, hhand⟩)
            refine absurd ⟨errors, hall, hread, call, hprogram, ?_⟩ h
            intro o' source' h'
            rw [hhand] at h'
            cases h'
            exact hcall
    · simp only [ne_eq, hentry, not_false_eq_true, if_true]
      exact .inl ⟨_, rfl⟩

theorem runIsolated_skip (s : Script) (options : List (String × Value)) (text : String)
    {limits : Limits} (h : limits.issue? = none) :
    ((runIsolated s options text limits .skip).1.map Result.diagnostics) =
      (evaluate s options text).bind fun payload => Collector.gathered s.variant payload := by
  rw [runIsolated_eq h, Context.run_eq rfl rfl]
  cases evaluate s options text with
  | error fault => rfl
  | ok payload =>
    simp only [Except.bind, Collector.gathered]
    rw [show (opened limits .skip).policy = .skip from rfl]
    obtain ⟨r, collector, journal⟩ := ((Collector.new s.variant .skip).receive payload).collect
    cases r <;> rfl

end Engine

namespace Checker

variable {c : Checker} {w : World} {text : String}

/-- The script that a check runs: the one that the checker has pinned, else the one that it loads. -/
inductive Runs (c : Checker) (w : World) : Script → Prop
  | pinned {s : Script} (h : c.script = some s) : c.Runs w s
  | loaded {s : Script} (h : c.script = none) (hload : c.loader.Loads w c.variant s) : c.Runs w s

/-- A check has a script to run, or there is a reason why not. -/
theorem runs_cases (c : Checker) (w : World) :
    (∃ s, c.Runs w s) ∨ c.script = none ∧ ∃ f, c.loader.Fails w c.variant f := by
  cases hscript : c.script with
  | some s => exact .inl ⟨s, .pinned hscript⟩
  | none =>
    obtain ⟨s, hload⟩ | hfails := Loader.load_cases c.loader w c.variant
    · exact .inl ⟨s, .loaded hscript hload⟩
    · exact .inr ⟨rfl, hfails⟩

theorem pinScript_runs {s : Script} (h : c.Runs w s) :
    ∃ c' w', c.pinScript w = (.ok s, c', w') ∧ c'.settings = c.settings ∧ c'.store = c.store := by
  cases h with
  | pinned h => exact ⟨c, w, by rw [pinScript, h], rfl, rfl⟩
  | loaded h hload =>
    obtain ⟨w', hload⟩ := Loader.load_loads hload
    simp only [pinScript, h, hload]
    exact ⟨_, _, rfl, rfl, rfl⟩

theorem pinScript_fails {f : Fault} (h : c.script = none) (hfails : c.loader.Fails w c.variant f) :
    c.pinScript w = (.error f, c, w) := by
  simp only [pinScript, h, Loader.load_fails hfails]

theorem check_eq (c : Checker) (w : World) (text : String) :
    (c.check w text).1 =
      ((c.run w text).1.map Result.diagnostics).bind Diagnostic.report := by
  simp only [check, checkOn, run]
  obtain ⟨r, c', w'⟩ := c.runOn unmetered w text
  cases r <;> rfl

/-- A check without a script fails for want of it. -/
theorem run_fails {f : Fault} (h : c.script = none) (hfails : c.loader.Fails w c.variant f) :
    (c.run w text).1 = .error f := by
  simp only [run, runOn, pinScript_fails h hfails]

/-- A check with a script is a run of it in a context of its own. -/
theorem run_isolated {s : Script} (h : c.Runs w s) (text : String) :
    (c.run w text).1 =
      (runIsolated s c.store.snapshot text (.ofSettings c.settings) c.settings.policy).1 := by
  obtain ⟨c', w', hpin, hsettings, hstore⟩ := pinScript_runs h
  simp only [run, runOn, hpin, hsettings, hstore, runIsolated]
  obtain ⟨r, journal⟩ := runIsolatedOn unmetered s c.store.snapshot text
    (.ofSettings c.settings) c.settings.policy
  cases r <;> rfl

/-- The interpreter takes the limits of a checker. -/
def Opens (c : Checker) : Prop := (Limits.ofSettings c.settings).issue? = none

theorem run_limited {s : Script} {issue : LimitIssue} (hruns : c.Runs w s)
    (hissue : (Limits.ofSettings c.settings).issue? = some issue) :
    (c.run w text).1 = .error (.limitTooLarge issue) := by
  rw [run_isolated hruns, runIsolated_limited _ _ _ _ hissue]

theorem run_withheld {s : Script} (hruns : c.Runs w s) (hopens : c.Opens)
    (h : s.Withholds c.store.snapshot) : (c.run w text).1 = .error .unwritable := by
  rw [run_isolated hruns, runIsolated_eq hopens, Context.run_eq rfl rfl, h.evaluate_eq]

theorem run_runs {s : Script} (hpolicy : c.settings.policy = .skip) (hopens : c.Opens)
    (h : c.Runs w s) :
    (c.run w text).1.map Result.diagnostics =
      (evaluate s c.store.snapshot text).bind fun payload =>
        Collector.gathered s.variant payload := by
  rw [run_isolated h, hpolicy]
  exact runIsolated_skip s c.store.snapshot text hopens

/-- Failures of a check that are neither the want of a script nor its own: a script cannot be read,
the interpreter cannot take the limits, an option is not written, or the position of a finding cannot
be shown. -/
inductive Escapes (c : Checker) (w : World) (text : String) : Fault → Prop
  | script {f : Fault} (h : c.script = none) (hfails : c.loader.Fails w c.variant f)
    (hthere : f.faultClass ≠ .engineNotFound) : c.Escapes w text f
  | limits {s : Script} {issue : LimitIssue} (hruns : c.Runs w s)
    (hissue : (Limits.ofSettings c.settings).issue? = some issue) :
    c.Escapes w text (.limitTooLarge issue)
  | options {s : Script} (hruns : c.Runs w s) (hopens : c.Opens)
    (h : s.Withholds c.store.snapshot) : c.Escapes w text .unwritable
  | positions {r : Result} (hrun : (c.run w text).1 = .ok r)
    (h : ∃ d ∈ r.diagnostics, d.isShowable = false) : c.Escapes w text .unwritable

theorem report_unshown {ds : List Diagnostic} (h : ∃ d ∈ ds, d.isShowable = false) :
    Diagnostic.report ds = .error .unwritable := by
  obtain ⟨d, hd, hshown⟩ := h
  rw [Diagnostic.report, if_neg]
  intro hall
  exact Bool.false_ne_true (hshown.symm.trans (List.all_eq_true.1 hall d hd))

theorem check_escapes {f : Fault} (h : c.Escapes w text f) : (c.check w text).1 = .error f := by
  rw [check_eq]
  cases h with
  | script h hfails _ => rw [run_fails h hfails]; rfl
  | limits hruns hissue => rw [run_limited hruns hissue]; rfl
  | options hruns hopens h => rw [run_withheld hruns hopens h]; rfl
  | positions hrun h => rw [hrun]; exact report_unshown h

/-- No such failure is the want of a script, or its own. -/
theorem faultClass_escapes {f : Fault} (h : c.Escapes w text f) :
    f.faultClass ≠ .engineNotFound ∧ f.faultClass ≠ .engineExecution := by
  cases h with
  | script _ hfails hthere =>
    refine ⟨hthere, ?_⟩
    cases hfails <;> exact nofun
  | limits _ hissue =>
    rename_i issue
    cases issue <;> exact ⟨nofun, nofun⟩
  | options _ _ _ => exact ⟨nofun, nofun⟩
  | positions _ _ => exact ⟨nofun, nofun⟩

theorem report?_eq_none {ds : List Diagnostic} : Diagnostic.report? ds = none ↔ ds = [] := by
  cases ds <;> simp [Diagnostic.report?]

section Ends

variable {s : Script} {errors : Option Datum} (hpolicy : c.settings.policy = .skip)
  (hopens : c.Opens) (hruns : c.Runs w s)

include hpolicy hopens hruns

theorem check_clean (hleaves : s.Leaves c.store.snapshot text errors)
    (hfinite : ∀ d ∈ errors, d.isFinite = true) (h : verdict errors = .clean) :
    (c.check w text).1 = .ok none := by
  rw [check_eq, run_runs hpolicy hopens hruns, hleaves.evaluate_eq, Except.bind,
    Collector.gathered_clean s.variant hfinite h]
  rfl

theorem check_findings (hleaves : s.Leaves c.store.snapshot text errors)
    (hfinite : ∀ d ∈ errors, d.isFinite = true) (h : verdict errors = .findings) :
    ∃ report, (c.check w text).1 = .ok (some report) := by
  obtain ⟨ds, hne, hds, hshown⟩ := Collector.gathered_findings s.variant hfinite h
  rw [check_eq, run_runs hpolicy hopens hruns, hleaves.evaluate_eq, Except.bind, hds, Except.bind,
    Diagnostic.report, if_pos hshown]
  cases hreport : Diagnostic.report? ds with
  | none => exact absurd (report?_eq_none.1 hreport) hne
  | some report => exact ⟨report, rfl⟩

theorem escapes_unshown (hleaves : s.Leaves c.store.snapshot text errors)
    (hfinite : ∀ d ∈ errors, d.isFinite = true) (h : verdict errors = .unshown) :
    c.Escapes w text .unwritable := by
  obtain ⟨ds, hds, hshown⟩ := Collector.gathered_unshown s.variant hfinite h
  have hrun : (c.run w text).1.map Result.diagnostics = _ := run_runs hpolicy hopens hruns
  rw [hleaves.evaluate_eq, Except.bind, hds] at hrun
  cases hresult : (c.run w text).1 with
  | error f =>
    rw [hresult] at hrun
    cases hrun
  | ok r =>
    rw [hresult] at hrun
    obtain rfl : r.diagnostics = ds := Except.ok.inj hrun
    exact .positions hresult (by simpa using hshown)

theorem check_unusable (hleaves : s.Leaves c.store.snapshot text errors)
    (hfinite : ∀ d ∈ errors, d.isFinite = true) (h : verdict errors = .unusable) :
    ∃ name detail, (c.check w text).1 = .error (.engineFailed name detail) := by
  obtain ⟨detail, hfailed⟩ := Collector.gathered_unusable s.variant hfinite h
  rw [check_eq, run_runs hpolicy hopens hruns, hleaves.evaluate_eq, Except.bind, hfailed]
  exact ⟨_, detail, rfl⟩

theorem check_failed (h : ¬ ∃ errors, s.Leaves c.store.snapshot text errors) :
    (∃ name detail, (c.check w text).1 = .error (.engineFailed name detail)) ∨
      c.Escapes w text .unwritable := by
  obtain ⟨detail, hfailed⟩ | hwithheld := evaluate_failed h
  · rw [check_eq, run_runs hpolicy hopens hruns, hfailed]
    exact .inl ⟨_, detail, rfl⟩
  · exact .inr (.options hruns hopens hwithheld)

end Ends

/-- Errors of the script that a check runs are values that a document can hold. -/
def LeavesFinite (c : Checker) (w : World) (text : String) : Prop :=
  ∀ s d, c.Runs w s → s.Leaves c.store.snapshot text (some d) → d.isFinite = true

theorem LeavesFinite.left {s : Script} {errors : Option Datum} (h : c.LeavesFinite w text)
    (hruns : c.Runs w s) (hleaves : s.Leaves c.store.snapshot text errors) :
    ∀ d ∈ errors, d.isFinite = true := by
  rintro d rfl
  exact h s d hruns hleaves

/-- A script that a check runs ends with errors of this verdict. -/
def Ends (c : Checker) (w : World) (text : String) (v : Verdict) : Prop :=
  c.Opens ∧ ∃ s errors, c.Runs w s ∧ s.Leaves c.store.snapshot text errors ∧ verdict errors = v

/-- What is kept apart from the two good ends: the want of a script, its own failure, and the
others. -/
def FailsWith (c : Checker) (w : World) (text : String) (f : Fault) : Prop :=
  (c.check w text).1 = .error f ∧
    (f.faultClass = .engineNotFound ∨ f.faultClass = .engineExecution ∨ c.Escapes w text f)

theorem check_cases (hpolicy : c.settings.policy = .skip) (hfinite : c.LeavesFinite w text) :
    c.Ends w text .clean ∧ (c.check w text).1 = .ok none ∨
      (c.Ends w text .findings ∧ ∃ report, (c.check w text).1 = .ok (some report)) ∨
      ∃ fault, c.FailsWith w text fault := by
  obtain ⟨s, hruns⟩ | ⟨hscript, f, hfails⟩ := c.runs_cases w
  · cases hissue : (Limits.ofSettings c.settings).issue? with
    | some issue =>
      have hescapes : c.Escapes w text (.limitTooLarge issue) := .limits hruns hissue
      exact .inr (.inr ⟨_, check_escapes hescapes, .inr (.inr hescapes)⟩)
    | none =>
      have hopens : c.Opens := hissue
      by_cases hend : ∃ errors, s.Leaves c.store.snapshot text errors
      · obtain ⟨errors, hleaves⟩ := hend
        have hleft := hfinite.left hruns hleaves
        cases hverdict : verdict errors with
        | clean =>
          exact .inl ⟨⟨hopens, s, errors, hruns, hleaves, hverdict⟩,
            check_clean hpolicy hopens hruns hleaves hleft hverdict⟩
        | findings =>
          exact .inr (.inl ⟨⟨hopens, s, errors, hruns, hleaves, hverdict⟩,
            check_findings hpolicy hopens hruns hleaves hleft hverdict⟩)
        | unshown =>
          have hescapes := escapes_unshown hpolicy hopens hruns hleaves hleft hverdict
          exact .inr (.inr ⟨_, check_escapes hescapes, .inr (.inr hescapes)⟩)
        | unusable =>
          obtain ⟨name, detail, h⟩ := check_unusable hpolicy hopens hruns hleaves hleft hverdict
          exact .inr (.inr ⟨_, h, .inr (.inl rfl)⟩)
      · obtain ⟨name, detail, h⟩ | hescapes := check_failed hpolicy hopens hruns hend
        · exact .inr (.inr ⟨_, h, .inr (.inl rfl)⟩)
        · exact .inr (.inr ⟨_, check_escapes hescapes, .inr (.inr hescapes)⟩)
  · have hcheck : (c.check w text).1 = .error f := by
      rw [check_eq, run_fails hscript hfails]
      rfl
    by_cases hmissing : f.faultClass = .engineNotFound
    · exact .inr (.inr ⟨f, hcheck, .inl hmissing⟩)
    · exact .inr (.inr ⟨f, hcheck, .inr (.inr (.script hscript hfails hmissing))⟩)

/-- The outcome of a check that leaves malformed records out. It finds nothing exactly if there is a
script that runs to its end and leaves clean errors, and has a report exactly if there is one that
leaves findings whose positions can be shown. In every other case it fails: for want of a script, by
a failure of the script, or in one of the ways that are listed. The errors that the script leaves
have to be a value with finite numbers. -/
theorem check_outcome (c : Checker) (w : World) (text : String)
    (hpolicy : c.settings.policy = .skip) (hfinite : c.LeavesFinite w text) :
    ((c.check w text).1 = .ok none ↔ c.Ends w text .clean) ∧
    ((∃ report, (c.check w text).1 = .ok (some report)) ↔ c.Ends w text .findings) ∧
    (∀ fault, (c.check w text).1 = .error fault →
      (fault.faultClass = .engineNotFound ∨ fault.faultClass = .engineExecution) ∨
        c.Escapes w text fault) ∧
    (∀ fault, c.Escapes w text fault → (c.check w text).1 = .error fault ∧
      fault.faultClass ≠ .engineNotFound ∧ fault.faultClass ≠ .engineExecution) := by
  have hcases := check_cases hpolicy hfinite
  refine ⟨⟨?_, ?_⟩, ⟨?_, ?_⟩, ?_, fun fault h => ⟨check_escapes h, faultClass_escapes h⟩⟩
  · intro h
    obtain ⟨hclean, _⟩ | ⟨_, report, hreport⟩ | ⟨fault, herror, _⟩ := hcases
    · exact hclean
    · rw [h] at hreport
      cases hreport
    · rw [h] at herror
      cases herror
  · rintro ⟨hopens, s, errors, hruns, hleaves, hverdict⟩
    exact check_clean hpolicy hopens hruns hleaves (hfinite.left hruns hleaves) hverdict
  · rintro ⟨report, h⟩
    obtain ⟨_, hnone⟩ | ⟨hfindings, _⟩ | ⟨fault, herror, _⟩ := hcases
    · rw [h] at hnone
      cases hnone
    · exact hfindings
    · rw [h] at herror
      cases herror
  · rintro ⟨hopens, s, errors, hruns, hleaves, hverdict⟩
    exact check_findings hpolicy hopens hruns hleaves (hfinite.left hruns hleaves) hverdict
  · intro fault h
    obtain ⟨_, hnone⟩ | ⟨_, report, hreport⟩ | ⟨_, herror, hclass⟩ := hcases
    · rw [h] at hnone
      cases hnone
    · rw [h] at hreport
      cases hreport
    · rw [h] at herror
      cases herror
      exact or_assoc.2 hclass

section Created

/-- A world with nothing but a script of the lenient edition. -/
def scriptWorld (p : Program) : World :=
  ⟨⟨1, []⟩, ⟨1, []⟩, [], ⟨[(["jshint.js"], .file (.program p))]⟩, [], []⟩

/-- The checker that is created for the lenient edition, with a value for an option that it does not
declare. It has the standard settings and has not run. -/
def createdChecker (v : Value) : Checker :=
  ⟨{ Settings.standard with engine := "jshint" }, .jshint, ⟨⟨1, []⟩⟩,
    .ofProfile .jshint (Options.resolve (Options.defaults .jshint) [("wide", v)]), none⟩

theorem create_createdChecker (p : Program) (v : Value) :
    (create (scriptWorld p) [("wide", v)] (some (.str "jshint")) .standard none).1 =
      .ok (createdChecker v) := rfl

/-- The script that the checker loads there. -/
def scriptedBy (p : Program) : Script :=
  ⟨.jshint, ⟨1, ["jshint.js"]⟩, "", Digest.textDigest "", p⟩

theorem loads_created (p : Program) :
    (Loader.mk ⟨1, []⟩).Loads (scriptWorld p) .jshint (scriptedBy p) := by
  have hplace : (Loader.mk ⟨1, []⟩).HasPlace (scriptWorld p) .jshint := by
    rw [Loader.HasPlace]
    rfl
  exact .read hplace rfl rfl rfl

theorem runs_created (p : Program) (v : Value) :
    (createdChecker v).Runs (scriptWorld p) (scriptedBy p) :=
  .loaded rfl (loads_created p)

/-- No other script is run. -/
theorem eq_of_runs {p : Program} {v : Value} {s : Script}
    (h : (createdChecker v).Runs (scriptWorld p) s) : s = scriptedBy p := by
  have hpin := pinScript_runs h
  have hpin' := pinScript_runs (runs_created p v)
  obtain ⟨_, _, hpin, _⟩ := hpin
  obtain ⟨_, _, hpin', _⟩ := hpin'
  rw [hpin] at hpin'
  cases hpin'
  rfl

theorem leavesFinite_reporting {v : Value} {x : Datum} (text : String) (h : x.isFinite = true) :
    (createdChecker v).LeavesFinite (scriptWorld (.reporting "JSHINT" x)) text := by
  intro s d hruns hleaves
  rw [eq_of_runs hruns] at hleaves
  cases hleaves.eq_reporting rfl
  exact h

theorem leaves_reporting (x : Datum) (text : String) :
    (scriptedBy (.reporting "JSHINT" x)).Leaves (createdChecker (.int 4)).store.snapshot text
      (some x) := by
  have hhand : (handOver (createdChecker (.int 4)).store.snapshot text).isOk = true := by
    rw [isOk_handOver]
    decide
  obtain ⟨hwritten, hreadable⟩ := isOk_handOver_iff.1 hhand
  exact ⟨hwritten, hreadable, _, rfl, fun _ _ _ => rfl⟩

/-- A clean end, a report, and a failure, by a checker that was created for its script. -/
theorem check_outcome_created :
    (create (scriptWorld .inert) [("wide", .int 4)] (some (.str "jshint")) .standard none).1 =
      .ok (createdChecker (.int 4)) ∧
    ((createdChecker (.int 4)).check (scriptWorld (.reporting "JSHINT" (.arr [.null]))) "a").1 =
      .ok none ∧
    (∃ report, ((createdChecker (.int 4)).check (scriptWorld
      (.reporting "JSHINT" (.arr [.null, Program.record 0 2 "r" ['a']]))) "a").1 =
      .ok (some report)) ∧
    ∃ fault, ((createdChecker (.int 4)).check (scriptWorld .inert) "a").1 = .error fault ∧
      fault.faultClass = .engineExecution := by
  have hopens : (createdChecker (.int 4)).Opens := by
    rw [Opens]
    rfl
  have hclean := check_outcome (createdChecker (.int 4))
    (scriptWorld (.reporting "JSHINT" (.arr [.null]))) "a" rfl (leavesFinite_reporting "a" rfl)
  have hfindings := check_outcome (createdChecker (.int 4))
    (scriptWorld (.reporting "JSHINT" (.arr [.null, Program.record 0 2 "r" ['a']]))) "a" rfl
    (leavesFinite_reporting "a" (by decide))
  refine ⟨rfl, hclean.1.2 ?_, hfindings.2.1.2 ?_, ?_⟩
  · exact ⟨hopens, _, _, runs_created _ _, leaves_reporting _ "a", by decide⟩
  · exact ⟨hopens, _, _, runs_created _ _, leaves_reporting _ "a", by decide⟩
  · exact ⟨.engineFailed "jshint" "entry point JSHINT is not defined", rfl, rfl⟩

/-- An option with too many digits makes a check fail that is neither without a script nor failed by
its script. -/
theorem check_overlong :
    (create (scriptWorld .inert) [("wide", .int Digits.overlong)] (some (.str "jshint")) .standard
      none).1 = .ok (createdChecker (.int Digits.overlong)) ∧
    ((createdChecker (.int Digits.overlong)).check
      (scriptWorld (.reporting "JSHINT" (.arr [.null]))) "a").1 = .error .unwritable ∧
    Fault.unwritable.faultClass ≠ .engineNotFound ∧
    Fault.unwritable.faultClass ≠ .engineExecution := by
  have hopens : (createdChecker (.int Digits.overlong)).Opens := by
    rw [Opens]
    rfl
  have hextras : ∀ v, (createdChecker v).store.extras = [("wide", v)] := fun _ => rfl
  have hmem : ("wide", Value.int Digits.overlong) ∈
      (createdChecker (.int Digits.overlong)).store.snapshot := by
    rw [Options.Store.snapshot, hextras]
    exact Mapping.mem_of_get? (Mapping.get?_put_self _ _ _)
  have hescapes : (createdChecker (.int Digits.overlong)).Escapes
      (scriptWorld (.reporting "JSHINT" (.arr [.null]))) "a" .unwritable :=
    .options (runs_created _ _) hopens ⟨⟨_, rfl⟩, _, hmem, Digits.isWritable_overlong⟩
  exact ⟨create_createdChecker _ _, check_escapes hescapes, nofun, nofun⟩

end Created

end Checker

end ScriptLint
