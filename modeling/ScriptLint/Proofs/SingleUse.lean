import Mathlib.Data.List.Induction
import ScriptLint.Proofs.Runs

/-!
# ScriptLint.Proofs.SingleUse

A context serves one check. Two flags see to that, and different calls set them; over every sequence
of calls they say the same thing: whether the context stands open, and whether it was used up.

* `observed`, `Step`: calls on a context, with what they evaluate
* `Taken`: what a call can do
* `Opened`: whether a context stands open, told from the calls
* `Reflects`: what the flags of a context say about the calls on it
* `single_use`: what a call does after a history of calls
-/

namespace ScriptLint.Engine

/-- A script that is evaluated with options and a text. -/
structure Evaluation where
  script : Script
  options : List (String × Value)
  text : String

/-- The interpreter, with a record of what it evaluates. -/
def observed : Interpreter (StateM (List Evaluation)) := fun script options text => do
  modify (· ++ [⟨script, options, text⟩])
  pure (evaluate script options text)

/-- A call on a context. -/
inductive Call where
  | open
  | enter
  | run (script : Script) (options : List (String × Value)) (text : String)
  | close
  | exit

namespace Call

def opens : Call → Bool
  | .open | .enter => true
  | _ => false

def closes : Call → Bool
  | .close | .exit => true
  | _ => false

end Call

/-- A call with its answer, what was evaluated for it, and the context before and after it. Only
runs have findings. -/
structure Step where
  call : Call
  answer : Except Fault (List Diagnostic)
  evaluated : List Evaluation
  before : Context
  after : Context

namespace Step

def Opens (s : Step) : Prop := s.call.opens = true ∧ s.answer.isOk = true

/-- The call is answered with an error of the library, and nothing comes of it. -/
structure Refused (s : Step) (fault : Fault) : Prop where
  answer : s.answer = .error fault
  fromLibrary : fault.faultClass = .general
  idle : s.evaluated = []
  unchanged : s.after = s.before

end Step

/-- The context was opened, and was not closed since then. -/
def Opened (steps : List Step) : Prop :=
  ∃ earlier s since, steps = earlier ++ s :: since ∧ s.Opens ∧ ∀ t ∈ since, t.call.closes = false

namespace Context

variable {c : Context}

def step (c : Context) (call : Call) : Step :=
  match call with
  | .open | .enter =>
    match c.open? with
    | .ok opened => ⟨call, .ok [], [], c, opened⟩
    | .error fault => ⟨call, .error fault, [], c, c⟩
  | .close | .exit => ⟨call, .ok [], [], c, c.close⟩
  | .run script options text =>
    let (answer, after) := ((c.run script options text).1, (c.run script options text).2.1)
    ⟨call, answer, ((c.runOn observed script options text).run []).run.2, c, after⟩

def after (c : Context) (calls : List Call) : Context :=
  calls.foldl (fun c call => (c.step call).after) c

/-- The calls of a sequence, each on the context that the ones before it left. -/
def history (c : Context) : List Call → List Step
  | [] => []
  | call :: calls => c.step call :: history (c.step call).after calls

theorem after_append (c : Context) (calls : List Call) (call : Call) :
    c.after (calls ++ [call]) = ((c.after calls).step call).after := by
  rw [after, List.foldl_append]
  rfl

theorem history_append (calls : List Call) (call : Call) : ∀ c : Context,
    c.history (calls ++ [call]) = c.history calls ++ [(c.after calls).step call] := by
  induction calls with
  | nil => exact fun _ => rfl
  | cons first calls ih => exact fun c => congrArg (c.step first :: ·) (ih (c.step first).after)

/-- What a call can do to a context. -/
inductive Taken (c : Context) : Step → Prop where
  | opened {call : Call} (hcall : call.opens = true) (hopen : c.isOpen = false)
      (hused : c.used = false) : Taken c ⟨call, .ok [], [], c, { c with isOpen := true }⟩
  | notOpened {call : Call} {fault : Fault} (hcall : call.opens = true)
      (hfault : c.isOpen = true ∨ c.used = true → fault = .contextUsedUp) :
      Taken c ⟨call, .error fault, [], c, c⟩
  | closed {call : Call} (hcall : call.closes = true) : Taken c ⟨call, .ok [], [], c, c.close⟩
  | notRun {script : Script} {options : List (String × Value)} {text : String}
      (h : c.isOpen = false ∨ c.used = true) :
      Taken c ⟨.run script options text, .error .contextNotReady, [], c, c⟩
  | ran {script : Script} {options : List (String × Value)} {text : String}
      {answer : Except Fault (List Diagnostic)} {skipped : Nat} (hopen : c.isOpen = true)
      (hused : c.used = false) :
      Taken c ⟨.run script options text, answer, [⟨script, options, text⟩], c,
        { c with used := true, skipped := skipped }⟩

theorem taken_open {call : Call} (hcall : call.opens = true) (h : c.step call =
    match c.open? with
    | .ok opened => ⟨call, .ok [], [], c, opened⟩
    | .error fault => ⟨call, .error fault, [], c, c⟩) : Taken c (c.step call) := by
  rw [h, open?]
  cases hflags : c.used || c.isOpen with
  | true => exact .notOpened hcall fun _ => rfl
  | false =>
    obtain ⟨hused, hopen⟩ : c.used = false ∧ c.isOpen = false := by simpa using hflags
    cases c.limits.issue? with
    | none => exact .opened hcall hopen hused
    | some issue =>
      refine .notOpened hcall ?_
      rintro (hopen' | hused')
      · rw [hopen] at hopen'
        cases hopen'
      · rw [hused] at hused'
        cases hused'

section Runs

variable {script : Script} {options : List (String × Value)} {text : String}

/-- The record changes nothing about what comes of a run. -/
theorem observed_refused (h : (!c.isOpen || c.used) = true) :
    ((c.runOn observed script options text).run []).run = (c.run script options text, []) := by
  rw [run_refused h, runOn, h]
  rfl

theorem observed_run (hopen : c.isOpen = true) (hused : c.used = false) :
    ((c.runOn observed script options text).run []).run =
      (c.run script options text, [⟨script, options, text⟩]) := by
  rw [run_eq hopen hused, runOn, hopen, hused]
  simp only [Bool.not_true, Bool.or_self, Bool.false_eq_true, if_false, observed, bind_pure_comp,
    bind_map_left, StateT.run_bind, StateT.run_modify, List.nil_append, pure_bind]
  -- nothing behind the evaluation evaluates anything
  cases evaluate script options text with
  | error fault => rfl
  | ok payload =>
    dsimp only
    obtain ⟨r, _, _⟩ := ((Collector.new script.variant c.policy).receive payload).collect
    cases r <;> rfl

/-- Whatever comes of a run, it uses the context up and leaves it open. -/
theorem after_run (hopen : c.isOpen = true) (hused : c.used = false) : ∃ skipped,
    (c.run script options text).2.1 = { c with used := true, skipped := skipped } := by
  rw [run_eq hopen hused]
  cases evaluate script options text with
  | error fault => exact ⟨c.skipped, rfl⟩
  | ok payload =>
    dsimp only
    obtain ⟨r, collector, _⟩ := ((Collector.new script.variant c.policy).receive payload).collect
    cases r with
    | error fault => exact ⟨c.skipped, rfl⟩
    | ok ds => exact ⟨collector.skipped, rfl⟩

theorem taken_run (c : Context) (script : Script) (options : List (String × Value))
    (text : String) : Taken c (c.step (.run script options text)) := by
  rw [step]
  cases hflags : !c.isOpen || c.used with
  | true =>
    rw [observed_refused hflags, run_refused hflags]
    exact .notRun (by simpa using hflags)
  | false =>
    obtain ⟨hopen, hused⟩ : c.isOpen = true ∧ c.used = false := by simpa using hflags
    obtain ⟨skipped, hafter⟩ := @after_run c script options text hopen hused
    rw [observed_run hopen hused, hafter]
    exact .ran hopen hused

end Runs

theorem step_taken (c : Context) (call : Call) : Taken c (c.step call) :=
  match call with
  | .open => taken_open rfl rfl
  | .enter => taken_open rfl rfl
  | .close => .closed rfl
  | .exit => .closed rfl
  | .run script options text => taken_run c script options text

end Context

section Histories

theorem closes_of_opens {call : Call} (h : call.opens = true) : call.closes = false := by
  cases call <;> first | rfl | cases h

theorem opened_append {steps : List Step} {s : Step} :
    Opened (steps ++ [s]) ↔ s.Opens ∨ Opened steps ∧ s.call.closes = false := by
  constructor
  · rintro ⟨earlier, t, since, heq, hopens, hsince⟩
    obtain rfl | ⟨since, last, rfl⟩ := List.eq_nil_or_concat' since
    · obtain ⟨_, hlast⟩ := List.append_inj' heq rfl
      obtain rfl := List.singleton_inj.1 hlast
      exact .inl hopens
    · rw [← List.cons_append, ← List.append_assoc] at heq
      obtain ⟨rfl, hlast⟩ := List.append_inj' heq rfl
      obtain rfl := List.singleton_inj.1 hlast
      rw [List.forall_mem_append, List.forall_mem_singleton] at hsince
      exact .inr ⟨⟨earlier, t, since, rfl, hopens, hsince.1⟩, hsince.2⟩
  · rintro (hopens | ⟨⟨earlier, t, since, rfl, hopens, hsince⟩, hcloses⟩)
    · exact ⟨steps, s, [], rfl, hopens, by simp⟩
    · refine ⟨earlier, t, since ++ [s], by simp, hopens, ?_⟩
      rw [List.forall_mem_append, List.forall_mem_singleton]
      exact ⟨hsince, hcloses⟩

/-- The call uses its context up: it evaluates a script, whatever comes of that, or closes it. -/
def Step.UsesUp (s : Step) : Prop := s.evaluated ≠ [] ∨ s.call.closes = true

/-- What the flags of a context say about the calls on it. -/
structure Reflects (c : Context) (steps : List Step) : Prop where
  isOpen : c.isOpen = true ↔ Opened steps
  used : c.used = true ↔ ∃ t ∈ steps, t.UsesUp
  served : c.isOpen = true → c.used = true → ∃ t ∈ steps, t.evaluated ≠ []
  once : (steps.flatMap Step.evaluated).length ≤ 1

namespace Reflects

variable {c : Context} {steps : List Step} {s : Step}

theorem fresh (limits : Limits) (policy : Policy) : Reflects (.new limits policy) [] where
  isOpen := by
    refine ⟨nofun, ?_⟩
    rintro ⟨earlier, s, since, heq, _⟩
    simp at heq
  used := by simp [Context.new]
  served := nofun
  once := by simp

theorem evaluated_eq_nil (h : Reflects c steps) (hused : c.used = false) :
    ∀ t ∈ steps, t.evaluated = [] := by
  intro t ht
  by_contra hevaluated
  have htrue := h.used.2 ⟨t, ht, .inl hevaluated⟩
  rw [hused] at htrue
  cases htrue

theorem exists_append {p : Step → Prop} :
    (∃ t ∈ steps ++ [s], p t) ↔ (∃ t ∈ steps, p t) ∨ p s := by
  simp [or_and_right, exists_or]

/-- A call that neither opens nor uses up its context leaves the flags as they are. -/
theorem idle (h : Reflects c steps) (hafter : s.after = c) (hopens : ¬s.Opens)
    (hidle : s.evaluated = []) (hcloses : s.call.closes = false) :
    Reflects s.after (steps ++ [s]) where
  isOpen := by
    rw [hafter, h.isOpen, opened_append]
    simp [hopens, hcloses]
  used := by
    rw [hafter, h.used, exists_append]
    simp [Step.UsesUp, hidle, hcloses]
  served := by
    rw [hafter, exists_append]
    exact fun hopen hused => .inl (h.served hopen hused)
  once := by
    rw [List.flatMap_append, List.flatMap_singleton, hidle, List.append_nil]
    exact h.once

theorem taken (h : Reflects c steps) (hs : c.Taken s) : Reflects s.after (steps ++ [s]) := by
  cases hs with
  | notOpened hcall _ => exact h.idle rfl (fun hopens => by cases hopens.2) rfl (closes_of_opens hcall)
  | notRun _ => exact h.idle rfl (fun hopens => by cases hopens.2) rfl rfl
  | opened hcall hopen hused =>
    constructor
    · rw [opened_append]
      exact ⟨fun _ => .inl ⟨hcall, rfl⟩, fun _ => rfl⟩
    · rw [exists_append, ← h.used]
      simp [Step.UsesUp, closes_of_opens hcall]
    · intro _ hused'
      rw [hused] at hused'
      cases hused'
    · rw [List.flatMap_append, List.flatMap_singleton, List.append_nil]
      exact h.once
  | closed hcall =>
    constructor
    · rw [opened_append]
      refine ⟨nofun, ?_⟩
      rintro (hopens | ⟨_, hcloses⟩)
      · rw [closes_of_opens hopens.1] at hcall
        cases hcall
      · rw [hcall] at hcloses
        cases hcloses
    · rw [exists_append]
      exact ⟨fun _ => .inr (.inr hcall), fun _ => rfl⟩
    · nofun
    · rw [List.flatMap_append, List.flatMap_singleton, List.append_nil]
      exact h.once
  | @ran script options text _ _ hopen hused =>
    have hran : [(⟨script, options, text⟩ : Evaluation)] ≠ [] := List.cons_ne_nil _ _
    constructor
    · rw [opened_append, ← h.isOpen]
      exact ⟨fun _ => .inr ⟨hopen, rfl⟩, fun _ => hopen⟩
    · rw [exists_append]
      exact ⟨fun _ => .inr (.inl hran), fun _ => rfl⟩
    · intro _ _
      rw [exists_append]
      exact .inr hran
    · rw [List.flatMap_append, List.flatMap_singleton,
        List.flatMap_eq_nil_iff.2 (h.evaluated_eq_nil hused)]
      exact Nat.le_refl 1

theorem after_calls (limits : Limits) (policy : Policy) (calls : List Call) :
    Reflects ((Context.new limits policy).after calls)
      ((Context.new limits policy).history calls) := by
  induction calls using List.reverseRecOn with
  | nil => exact fresh limits policy
  | append_singleton calls call ih =>
    rw [Context.after_append, Context.history_append]
    exact ih.taken (Context.step_taken _ call)

end Reflects

end Histories

section Calls

variable {c : Context} {steps : List Step} {s : Step}

theorem step_call (c : Context) (call : Call) : (c.step call).call = call := by
  cases call <;> rw [Context.step] <;> first | rfl | (cases c.open? <;> rfl)

namespace Context.Taken

theorem evaluates_own (hs : c.Taken s) :
    ∀ e ∈ s.evaluated, s.call = .run e.script e.options e.text := by
  cases hs with
  | ran => simp
  | _ => simp

/-- The first run between a successful opening and the next closing, and no other call, evaluates
its script. -/
theorem evaluates_iff (hs : c.Taken s) (h : Reflects c steps) :
    s.evaluated ≠ [] ↔ (∃ script options text, s.call = .run script options text) ∧
      Opened steps ∧ ∀ t ∈ steps, t.evaluated = [] := by
  rw [← h.isOpen]
  cases hs with
  | opened hcall | notOpened hcall | closed hcall =>
    refine ⟨fun hran => absurd rfl hran, ?_⟩
    rintro ⟨⟨_, _, _, rfl⟩, _⟩
    cases hcall
  | notRun hnot =>
    refine ⟨fun hran => absurd rfl hran, ?_⟩
    rintro ⟨_, hopen, hidle⟩
    rcases hnot with hclosed | hused
    · rw [hopen] at hclosed
      cases hclosed
    · obtain ⟨t, ht, hevaluated⟩ := h.served hopen hused
      exact absurd (hidle t ht) hevaluated
  | ran hopen hused =>
    exact ⟨fun _ => ⟨⟨_, _, _, rfl⟩, hopen, h.evaluated_eq_nil hused⟩,
      fun _ => List.cons_ne_nil _ _⟩

/-- Every other run is refused, and so is every run of a context that was used up. -/
theorem refused_run (hs : c.Taken s) (h : Reflects c steps) {script : Script}
    {options : List (String × Value)} {text : String} (hcall : s.call = .run script options text)
    (hidle : s.evaluated = [] ∨ ∃ t ∈ steps, t.UsesUp) : s.Refused .contextNotReady := by
  cases hs with
  | opened hopens | notOpened hopens | closed hopens =>
    obtain rfl := hcall
    cases hopens
  | notRun => exact ⟨rfl, rfl, rfl, rfl⟩
  | ran _ hused =>
    rw [← h.used, hused] at hidle
    rcases hidle with hnil | hfalse
    · cases hnil
    · cases hfalse

/-- A context that was used up is never opened again. -/
theorem refused_open (hs : c.Taken s) (h : Reflects c steps) (hopens : s.call.opens = true)
    (hused : ∃ t ∈ steps, t.UsesUp) : s.Refused .contextUsedUp := by
  rw [← h.used] at hused
  cases hs with
  | opened _ _ hfresh =>
    rw [hused] at hfresh
    cases hfresh
  | notOpened _ hfault =>
    obtain rfl := hfault (.inr hused)
    exact ⟨rfl, rfl, rfl, rfl⟩
  | closed hcloses =>
    rw [closes_of_opens hopens] at hcloses
    cases hcloses
  | notRun | ran => cases hopens

/-- A call that fails without evaluating anything leaves the context as it was. -/
theorem unchanged (hs : c.Taken s) {fault : Fault} (hfault : s.answer = .error fault)
    (hidle : s.evaluated = []) : s.after = s.before := by
  cases hs with
  | opened | closed => cases hfault
  | notOpened | notRun => rfl
  | ran => cases hidle

end Context.Taken

end Calls

/-- What a call does to a context after any history of calls, with any scripts, options and texts.
In all, at most one script is evaluated. It is that of the first run between a successful opening
and the next closing; every other run is refused with an error of the library and evaluates nothing.
Evaluating a script uses the context up, whatever comes of it, and so does closing: from then on no
run evaluates anything, and every opening is refused in the same way. The context stands open
exactly from a successful opening to the next closing, and a call that is refused leaves it as it
was. -/
theorem single_use (limits : Limits) (policy : Policy) (calls : List Call) (call : Call) :
    let steps := (Context.new limits policy).history calls
    let s := ((Context.new limits policy).after calls).step call
    ((steps ++ [s]).flatMap Step.evaluated).length ≤ 1 ∧
    (∀ e ∈ s.evaluated, call = .run e.script e.options e.text) ∧
    (s.evaluated ≠ [] ↔ (∃ script options text, call = .run script options text) ∧
      Opened steps ∧ ∀ t ∈ steps, t.evaluated = []) ∧
    (∀ script options text, call = .run script options text →
      (s.evaluated = [] ∨ ∃ t ∈ steps, t.UsesUp) → s.Refused .contextNotReady) ∧
    (call.opens = true → (∃ t ∈ steps, t.UsesUp) → s.Refused .contextUsedUp) ∧
    (s.after.isOpen = true ↔ Opened (steps ++ [s])) ∧
    (∀ fault, s.answer = .error fault → s.evaluated = [] → s.after = s.before) := by
  intro steps s
  have h : Reflects _ steps := Reflects.after_calls limits policy calls
  have hs : Context.Taken _ s := Context.step_taken _ call
  have hcall : s.call = call := step_call _ call
  have hafter := h.taken hs
  rw [← hcall]
  exact ⟨hafter.once, hs.evaluates_own, hs.evaluates_iff h,
    fun _ _ _ hrun hidle => hs.refused_run h hrun hidle, hs.refused_open h, hafter.isOpen,
    fun _ hfault hidle => hs.unchanged hfault hidle⟩

/-- A script that does not get through loading. A run of it uses its context up nevertheless. -/
def brokenScript : Script :=
  ⟨.jslint, Path.parse "/engines/jslint.js", "", "", .broken "load failure"⟩

theorem single_use_broken :
    let c := Context.new .none .skip
    let calls := [.run brokenScript [] "", .open, .run brokenScript [] ""]
    ((c.after [.open]).step (.run brokenScript [] "")).evaluated ≠ [] ∧
    (c.step (.run brokenScript [] "")).Refused .contextNotReady ∧
    ((c.after calls).step (.run brokenScript [] "")).Refused .contextNotReady ∧
    ((c.after calls).step .open).Refused .contextUsedUp := by
  intro c calls
  have hused : ∃ t ∈ c.history calls, t.UsesUp :=
    ⟨_, List.mem_of_getLast? rfl, .inl (List.cons_ne_nil _ _)⟩
  refine ⟨?_, ?_, ?_, ?_⟩
  · refine (single_use .none .skip [.open] (.run brokenScript [] "")).2.2.1.2 ⟨⟨_, _, _, rfl⟩, ?_, ?_⟩
    · exact ⟨[], _, [], rfl, ⟨rfl, rfl⟩, by simp⟩
    · exact List.forall_mem_singleton.2 rfl
  · exact (single_use .none .skip [] _).2.2.2.1 _ _ _ rfl (.inl rfl)
  · exact (single_use .none .skip calls _).2.2.2.1 _ _ _ rfl (.inr hused)
  · exact (single_use .none .skip calls .open).2.2.2.2.1 rfl hused

end ScriptLint.Engine
