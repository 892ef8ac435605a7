import Mathlib.Algebra.GroupWithZero.Nat
import ScriptLint.Proofs.Policies

/-!
# ScriptLint.Proofs.Collections

A collector over time. What it received stays, and each collection goes over all of it anew, so
nothing that was counted or that went wrong before has a part in it.

* `Collector.Call`, `Collector.after`: what can be done with a collector
* `Collector.after_eq`: what is left of a history is what was received in it
* `Collector.Readable`: texts that stand for lists of records
* `Collector.gather_readable`, `Collector.gather_unreadable`: texts one after the other
* `Collector.collections_agree`: what a collection gives after a history
-/

namespace ScriptLint

namespace Collector

/-- What can be done with a collector. -/
inductive Call where
  | receive (payload : Value)
  | collect

/-- The text that a call hands to a collector. What is no text is taken as its text. -/
def Call.payload? : Call → Option String
  | receive payload => some payload.text
  | collect => none

def perform (c : Collector) : Call → Collector
  | .receive payload => c.receive payload.text
  | .collect => c.collect.2.1

def after (c : Collector) (calls : List Call) : Collector := calls.foldl perform c

/-- The texts received in a history. -/
def receivedIn (calls : List Call) : List String := calls.filterMap Call.payload?

/-- A collection goes over what was received. -/
theorem collect_outcome (c : Collector) :
    c.collect.1 = (gather c.engine c.policy c.payloads).2.elim
      (.ok (gather c.engine c.policy c.payloads).1.diagnostics) .error := by
  rw [collect]
  obtain ⟨harvested, fault⟩ := gather c.engine c.policy c.payloads
  cases fault <;> rfl

/-- It leaves what was received as it is, and its own count. -/
theorem collect_state (c : Collector) :
    c.collect.2.1 = { c with skipped := (gather c.engine c.policy c.payloads).1.skipped } := by
  rw [collect]
  obtain ⟨harvested, fault⟩ := gather c.engine c.policy c.payloads
  cases fault <;> rfl

/-- One call: a text that is handed over is kept, and nothing else but the count changes. -/
theorem perform_eq (c : Collector) (call : Call) : ∃ skipped, c.perform call =
    { c with payloads := c.payloads ++ call.payload?.toList, skipped := skipped } := by
  cases call with
  | receive payload => exact ⟨c.skipped, rfl⟩
  | collect =>
    refine ⟨(gather c.engine c.policy c.payloads).1.skipped, ?_⟩
    rw [perform, collect_state, Call.payload?, Option.toList_none, List.append_nil]

/-- What is left of a history is what was received in it, and a count. -/
theorem after_eq (calls : List Call) : ∀ c : Collector, ∃ skipped, c.after calls =
    { c with payloads := c.payloads ++ receivedIn calls, skipped := skipped } := by
  induction calls with
  | nil =>
    intro c
    exact ⟨c.skipped, by rw [receivedIn, List.filterMap_nil, List.append_nil]; rfl⟩
  | cons call calls ih =>
    intro c
    obtain ⟨n, hstep⟩ := perform_eq c call
    obtain ⟨skipped, hrest⟩ := ih (c.perform call)
    refine ⟨skipped, ?_⟩
    have hpayloads : receivedIn (call :: calls) = call.payload?.toList ++ receivedIn calls := by
      rw [receivedIn, List.filterMap_cons]
      cases call.payload? <;> rfl
    rw [hpayloads, ← List.append_assoc]
    rw [hstep] at hrest
    exact (congrArg (after · calls) hstep).trans hrest

/-- A collection starts to count anew. -/
theorem collect_skipped (c : Collector) (n : Nat) : collect { c with skipped := n } = c.collect :=
  rfl

theorem collect_after (engine : Variant) (policy : Policy) (calls : List Call) :
    ((new engine policy).after calls).collect =
      collect ⟨engine, policy, receivedIn calls, 0⟩ := by
  obtain ⟨skipped, hafter⟩ := after_eq calls (new engine policy)
  rw [hafter]
  rfl

/-- A text that stands for a list of records: white space alone, a null or a list. -/
def Readable (payload : String) : Prop :=
  Text.strip payload = "" ∨ Json.read payload = .ok .null ∨
    ∃ records, Json.read payload = .ok (.arr records)

theorem readable_iff {payload : String} :
    Readable payload ↔ ∃ records, decodeRecords payload = .ok records := by
  rw [Readable, decodeRecords]
  by_cases hblank : Text.strip payload = ""
  · rw [if_pos hblank]
    exact ⟨fun _ => ⟨[], rfl⟩, fun _ => .inl hblank⟩
  · rw [if_neg hblank]
    cases Json.read payload with
    | error e => simp [hblank]
    | ok j => cases j <;> simp [hblank]

variable (engine : Variant)

/-- What a text gives when it is all that was received. -/
def alone (payload : String) : Except Fault (List Diagnostic) × Collector × Log.Journal :=
  ((new engine .skip).receive payload).collect

/-- What a text adds when malformed records are left out. -/
def share (payload : String) : Harvest := (gather engine .skip [payload]).1

section Gathering

variable {payload : String} {payloads : List String}

/-- A text that can be read adds what it gives alone to what comes behind it. -/
theorem gather_cons_readable (h : Readable payload) (rest : List String) :
    gather engine .skip (payload :: rest) =
      ((share engine payload).append (gather engine .skip rest).1,
        (gather engine .skip rest).2) := by
  obtain ⟨records, hdecode⟩ := readable_iff.1 h
  obtain ⟨journal, hharvest⟩ := harvest_skip engine records 0
  have hshare : share engine payload =
      ⟨records.filterMap Json.diagnostic?, records.countP Json.isMalformed, journal⟩ := by
    simp [share, gather, hdecode, hharvest, Harvest.append, Harvest.none]
  rw [gather, hdecode, hshare]
  simp only [hharvest]

theorem gather_cons_unreadable (policy : Policy) (h : ¬Readable payload) (rest : List String) :
    ∃ detail, gather engine policy (payload :: rest) =
      (.none, some (.engineFailed engine.text detail)) := by
  cases hdecode : decodeRecords payload with
  | ok records => exact absurd (readable_iff.2 ⟨records, hdecode⟩) h
  | error e => exact ⟨"unreadable diagnostics payload: " ++ e.message, by rw [gather, hdecode]⟩

/-- Texts that can all be read. -/
theorem gather_readable (h : ∀ p ∈ payloads, Readable p) :
    (gather engine .skip payloads).2 = none ∧
      (gather engine .skip payloads).1.diagnostics =
        payloads.flatMap (fun p => (share engine p).diagnostics) ∧
      (gather engine .skip payloads).1.skipped =
        (payloads.map fun p => (share engine p).skipped).sum := by
  induction payloads with
  | nil => exact ⟨rfl, rfl, rfl⟩
  | cons payload rest ih =>
    rw [List.forall_mem_cons] at h
    obtain ⟨hfault, hdiagnostics, hskipped⟩ := ih h.2
    rw [gather_cons_readable engine h.1]
    refine ⟨hfault, ?_, ?_⟩
    · rw [Harvest.append, hdiagnostics, List.flatMap_cons]
    · rw [Harvest.append, hskipped, List.map_cons, List.sum_cons]

/-- The first text that cannot be read is a failure of the engine. -/
theorem gather_unreadable (h : ∃ p ∈ payloads, ¬Readable p) :
    ∃ detail, (gather engine .skip payloads).2 = some (.engineFailed engine.text detail) := by
  induction payloads with
  | nil => simp at h
  | cons payload rest ih =>
    by_cases hreadable : Readable payload
    · rw [gather_cons_readable engine hreadable]
      refine ih ?_
      obtain ⟨p, hp, hnot⟩ := h
      rcases List.mem_cons.1 hp with rfl | hp
      · exact absurd hreadable hnot
      · exact ⟨p, hp, hnot⟩
    · obtain ⟨detail, hgather⟩ := gather_cons_unreadable engine .skip hreadable rest
      exact ⟨detail, by rw [hgather]⟩

theorem alone_eq (payload : String) :
    alone engine payload = collect ⟨engine, .skip, [payload], 0⟩ := rfl

theorem alone_readable (h : Readable payload) :
    (alone engine payload).1 = .ok (share engine payload).diagnostics := by
  have hone : (gather engine .skip [payload]).2 = none :=
    (gather_readable engine (by simpa using h)).1
  rw [alone_eq, collect_outcome, hone, share, Option.elim_none]

theorem alone_skipped (payload : String) :
    (alone engine payload).2.1.skipped = (share engine payload).skipped := by
  rw [alone_eq, collect_state, share]

end Gathering

/-- What a collection gives after any history of texts handed over and collections. Only the texts
received count: two histories with the same texts are followed by the same collection, with the same
count of records left out, whatever the collections in between came to, and so is a collection by
another one. Leaving malformed records out, texts that can all be read give what they give alone,
one after the other, and the counts of each are added; and the collection is a failure of the engine
exactly if there is a text that cannot be read. -/
theorem collections_agree (engine : Variant) (policy : Policy) (calls : List Call) :
    let c := (new engine policy).after calls
    (∀ calls', receivedIn calls' = receivedIn calls →
      ((new engine policy).after calls').collect = c.collect) ∧
    (c.perform .collect).collect = c.collect ∧
    (policy = .skip →
      ((∀ p ∈ receivedIn calls, Readable p) → ∃ found : String → List Diagnostic,
        (∀ p ∈ receivedIn calls, (alone engine p).1 = .ok (found p)) ∧
          c.collect.1 = .ok ((receivedIn calls).flatMap found) ∧
          c.collect.2.1.skipped =
            ((receivedIn calls).map fun p => (alone engine p).2.1.skipped).sum) ∧
      ((∃ fault, c.collect.1 = .error fault ∧ fault.faultClass = .engineExecution) ↔
        ∃ p ∈ receivedIn calls, ¬Readable p)) := by
  intro c
  refine ⟨?_, ?_, ?_⟩
  · intro calls' hsame
    rw [collect_after, hsame, ← collect_after]
  · rw [perform, collect_state, collect_skipped]
  · rintro rfl
    have hcollect : c.collect = collect ⟨engine, .skip, receivedIn calls, 0⟩ :=
      collect_after engine .skip calls
    rw [hcollect, collect_outcome, collect_state]
    refine ⟨?_, ?_, ?_⟩
    · intro hreadable
      obtain ⟨hfault, hdiagnostics, hskipped⟩ := gather_readable engine hreadable
      refine ⟨fun p => (share engine p).diagnostics, ?_, ?_, ?_⟩
      · exact fun p hp => alone_readable engine (hreadable p hp)
      · rw [hfault, hdiagnostics, Option.elim_none]
      · simp only [hskipped, alone_skipped]
    · rintro ⟨fault, herror, _⟩
      by_cases hreadable : ∀ p ∈ receivedIn calls, Readable p
      · rw [(gather_readable engine hreadable).1] at herror
        cases herror
      · simpa using hreadable
    · intro hunreadable
      obtain ⟨detail, hgather⟩ := gather_unreadable engine hunreadable
      exact ⟨.engineFailed engine.text detail, by rw [hgather, Option.elim_some], rfl⟩

/-- Two lists with a malformed record each, collected in between. -/
def mixedCalls : List Call := [.receive (.str "[1]"), .collect, .receive (.str "[true]")]

theorem collections_agree_mixed :
    ((new .jslint .skip).after mixedCalls).collect.2.1.skipped = 2 ∧
    ∃ fault, ((new .jslint .skip).after (mixedCalls ++ [.receive (.str "x")])).collect.1 =
      .error fault ∧ fault.faultClass = .engineExecution := by
  have hreadable : ∀ p ∈ receivedIn mixedCalls, Readable p := by
    rw [show receivedIn mixedCalls = ["[1]", "[true]"] from rfl, List.forall_mem_cons,
      List.forall_mem_singleton]
    exact ⟨.inr (.inr ⟨_, rfl⟩), .inr (.inr ⟨_, rfl⟩)⟩
  have hunreadable : ¬Readable "x" := by
    rintro (hblank | hnull | ⟨records, hlist⟩)
    · exact absurd hblank (by decide)
    · cases hnull
    · cases hlist
  refine ⟨?_, ?_⟩
  · obtain ⟨_, _, _, hskipped⟩ :=
      ((collections_agree .jslint .skip mixedCalls).2.2 rfl).1 hreadable
    exact hskipped.trans rfl
  · exact ((collections_agree .jslint .skip (mixedCalls ++ [.receive (.str "x")])).2.2 rfl).2.2
      ⟨"x", by decide, hunreadable⟩

end Collector

end ScriptLint
