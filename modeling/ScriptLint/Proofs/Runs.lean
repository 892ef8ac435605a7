import ScriptLint.Engine.Sandbox
import ScriptLint.Proofs.FiniteNumbers
import ScriptLint.Proofs.Records

/-!
# ScriptLint.Proofs.Runs

A run of a script, from the call to the findings.

* `evaluate_left`: what is handed back for the errors that a call leaves
* `evaluate_unwritten`: options that are not written
* `Context.run_arr`: a run that leaves a list without malformed records
* `runIsolatedOn_eq`: interpreters that have what they need for a run
* `runIsolated_eq`: a check is one run in a context of its own
-/

namespace ScriptLint

namespace Engine

open Json

variable {script : Script} {options : List (String × Value)} {text : String}

theorem fits_count {n : Nat} (h : n < 10 ^ Digits.limit) : (count n).Fits := by
  rw [count, Datum.Fits, Int.natAbs_natCast]
  exact Digits.length_decimal_le (by decide) h

theorem evaluate_left {call : Options → List Char → Outcome} {o : Options} {source : List Char}
    {errors : Option Datum}
    (hprogram : script.program = .callable script.variant.entryPoint call)
    (hhand : handOver options text = .ok (o, source)) (hcall : call o source = .left errors) :
    evaluate script options text = .ok (payload errors) := by
  simp only [evaluate, hprogram, hhand, hcall, ne_eq, not_true_eq_false, if_false]

/-- Options that are not written are not handed over, and the script is not called. -/
theorem evaluate_unwritten {call : Options → List Char → Outcome}
    (hprogram : script.program = .callable script.variant.entryPoint call)
    (hunwritten : allWritable options = false) :
    evaluate script options text = .error .unwritable := by
  have hhand : handOver options text = .error (.fault .unwritable) := by
    rw [handOver_eq, if_neg (ne_true_of_eq_false hunwritten)]
  simp only [evaluate, hprogram, hhand, ne_eq, not_true_eq_false, if_false]

theorem handOver_of_evaluate {payload : String} (h : evaluate script options text = .ok payload) :
    ∃ o source, handOver options text = .ok (o, source) := by
  simp only [evaluate] at h
  split at h
  · cases h
  · cases h
  · split at h
    · cases h
    · split at h
      · cases h
      · cases h
      · exact ⟨_, _, ‹_›⟩

theorem evaluate_arr {call : Options → List Char → Outcome} {o : Options} {source : List Char}
    {xs : List Datum} (hprogram : script.program = .callable script.variant.entryPoint call)
    (hhand : handOver options text = .ok (o, source))
    (hcall : call o source = .left (some (.arr xs))) :
    evaluate script options text = .ok (Datum.arr xs).stringify := by
  rw [evaluate_left hprogram hhand hcall, payload, Datum.truthy, if_pos rfl]

namespace Context

variable {c : Context}

theorem run_eq (hopen : c.isOpen = true) (hused : c.used = false) :
    c.run script options text =
      match evaluate script options text with
      | .error fault => (.error fault, { c with used := true }, [])
      | .ok payload =>
        match ((Collector.new script.variant c.policy).receive payload).collect with
        | (.error fault, _, journal) => (.error fault, { c with used := true }, journal)
        | (.ok ds, collector, journal) =>
          (.ok ds, { c with used := true, skipped := collector.skipped }, journal) := by
  rw [run, runOn, hopen, hused]
  rfl

/-- A run in a context that is not ready evaluates nothing. -/
theorem run_refused (h : (!c.isOpen || c.used) = true) :
    c.run script options text = (.error .contextNotReady, c, []) := by
  rw [run, runOn, h]
  rfl

/-- A run that leaves a list without malformed records finds what the records say. -/
theorem run_arr {xs : List Datum} (hopen : c.isOpen = true) (hused : c.used = false)
    (heval : evaluate script options text = .ok (Datum.arr xs).stringify)
    (hfit : ∀ x ∈ xs, x.Fits) (hclean : ∀ x ∈ xs, x.document.isMalformed = false) :
    c.run script options text =
      (.ok ((xs.map Datum.document).filterMap diagnostic?), { c with used := true, skipped := 0 },
        []) := by
  have hfit' : (Datum.arr xs).Fits := by
    rw [Datum.Fits, Datum.allFit_iff]
    exact hfit
  have hdecode : decodeRecords (Datum.arr xs).stringify = .ok (xs.map Datum.document) := by
    rw [decodeRecords_stringify hfit', Datum.document, Datum.documents_eq_map]
  have hharvest := Collector.harvest_clean script.variant c.policy (xs.map Datum.document) 0 (by
    intro r hr
    obtain ⟨x, hx, rfl⟩ := List.mem_map.1 hr
    exact hclean x hx)
  rw [run_eq hopen hused, heval]
  simp only [Collector.collect_one hdecode hharvest]

end Context

/-- The context of a check, right after it was opened. -/
def opened (limits : Limits) (policy : Policy) : Context :=
  { Context.new limits policy with isOpen := true }

theorem open?_new {limits : Limits} (h : limits.issue? = none) (policy : Policy) :
    (Context.new limits policy).open? = .ok (opened limits policy) := by
  simp [Context.open?, Context.new, h, opened]

/-- An interpreter that has what it needs for a run is as good as one that has all. -/
theorem runIsolatedOn_eq {interpret : Limits → Interpreter Id} {limits : Limits}
    (h : interpret limits script options text = unmetered limits script options text)
    (policy : Policy) :
    runIsolatedOn interpret script options text limits policy =
      runIsolated script options text limits policy := by
  have hrun : ∀ c : Context, c.runOn (interpret limits) script options text =
      c.runOn (unmetered limits) script options text := by
    intro c
    simp only [Context.runOn, h]
  simp only [runIsolated, runIsolatedOn, hrun]

theorem runOn_unmetered (c : Context) (limits : Limits) :
    (c.runOn (unmetered limits) script options text).run = c.run script options text := rfl

/-- A check is one run in a context of its own. -/
theorem runIsolated_eq {limits : Limits} (h : limits.issue? = none) (policy : Policy) :
    (runIsolated script options text limits policy).1 =
      match (opened limits policy).run script options text with
      | (.error fault, _, _) => .error fault
      | (.ok ds, after, _) => .ok ⟨script.variant, ds, after.skipped⟩ := by
  simp only [runIsolated, runIsolatedOn, open?_new h policy, runOn_unmetered]
  obtain ⟨r, after, journal⟩ := (opened limits policy).run script options text
  cases r with
  | error fault => rfl
  | ok ds => rfl

/-- Without limits that the interpreter can take there is no context. -/
theorem runIsolated_limited (script : Script) (options : List (String × Value)) (text : String)
    {limits : Limits} (policy : Policy) {issue : LimitIssue} (h : limits.issue? = some issue) :
    (runIsolated script options text limits policy).1 = .error (.limitTooLarge issue) := by
  have hopen : (Context.new limits policy).open? = .error (.limitTooLarge issue) := by
    simp [Context.open?, Context.new, h]
  simp only [runIsolated, runIsolatedOn, hopen]

/-- A check that has a result has called its script. -/
theorem evaluate_of_result {limits : Limits} {policy : Policy} {result : Result}
    (h : (runIsolated script options text limits policy).1 = .ok result) :
    limits.issue? = none ∧ ∃ payload, evaluate script options text = .ok payload := by
  cases hissue : limits.issue? with
  | some issue =>
    rw [runIsolated_limited script options text policy hissue] at h
    cases h
  | none =>
    refine ⟨rfl, ?_⟩
    rw [runIsolated_eq hissue, Context.run_eq rfl rfl] at h
    cases heval : evaluate script options text with
    | error fault =>
      rw [heval] at h
      cases h
    | ok payload => exact ⟨payload, rfl⟩

end Engine

end ScriptLint
