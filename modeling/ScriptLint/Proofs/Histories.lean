import ScriptLint.Proofs.CheckOutcome

/-!
# ScriptLint.Proofs.Histories

What a checker does after any history of option writes, checks and changes of files. The script of
the first check that could load one stays; everything else of a check is of its own time.

* `Event`, `Session`: what can happen, and what it happens to
* `storeAfter`, `worldAfter`: options and files, each from the events that concern them
* `firstLoaded?`: the script of the first check that could load one
* `Checker.run_cases`: a check keeps the script it found, or changes nothing
* `Session.after_eq`: the checker after a history, and the files as long as it has no script
* `Checker.checks_apart`: what a check gives after a history
-/

namespace ScriptLint

open Engine Options

/-- What can happen to a checker and around it. -/
inductive Event where
  /-- An option is stored under its name. -/
  | set (name : String) (value : Value)
  /-- An attribute of the option record is assigned. -/
  | assign (name : String) (value : Value)
  | check (text : String)
  | write (p : Path) (content : Content)
  | delete (p : Path)
  | clearCache

structure Session where
  checker : Checker
  world : World

namespace Session

def perform (s : Session) : Event → Session
  | .set name value => { s with checker := s.checker.set name value }
  | .assign name value => { s with checker := s.checker.setField name value }
  | .check text =>
    let (_, checker, world) := s.checker.check s.world text
    ⟨checker, world⟩
  | .write p content => { s with world := s.world.writeFile p content }
  | .delete p => { s with world := s.world.deleteFile p }
  | .clearCache => { s with world := Loader.clearCache s.world }

def after (s : Session) (events : List Event) : Session := events.foldl perform s

end Session

namespace Event

def writeOption (store : Store) : Event → Store
  | set name value => store.set name value
  | assign name value => store.setField name value
  | _ => store

def changeFiles (w : World) : Event → World
  | write p content => w.writeFile p content
  | delete p => w.deleteFile p
  | clearCache => Loader.clearCache w
  | _ => w

end Event

/-- Options after a history: only the writes of options count. -/
def storeAfter (store : Store) (events : List Event) : Store := events.foldl Event.writeOption store

/-- Files and kept script texts after a history: only what changes them from outside counts. -/
def worldAfter (w : World) (events : List Event) : World := events.foldl Event.changeFiles w

/-- What a check without a script loads. -/
def Event.loaded? (l : Loader) (v : Variant) (w : World) : Event → Option Script
  | check _ => (l.load w (.choice (.variant v))).1.toOption
  | _ => none

/-- The script of the first check in a history that could load one, from the files of that time. -/
def firstLoaded? (l : Loader) (v : Variant) : World → List Event → Option Script
  | _, [] => none
  | w, event :: events =>
    (event.loaded? l v w).or (firstLoaded? l v (event.changeFiles w) events)

namespace Engine.Loader

variable {l : Loader} {w : World} {v : Variant}

/-- Nothing is kept of a script that could not be loaded. -/
theorem load_unchanged {fault : Fault} (h : (l.load w (.choice (.variant v))).1 = .error fault) :
    l.load w (.choice (.variant v)) = (.error fault, w) := by
  obtain ⟨s, hloads⟩ | ⟨f, hfails⟩ := load_cases l w v
  · obtain ⟨w', hload⟩ := load_loads hloads
    rw [hload] at h
    cases h
  · rw [load_fails hfails] at h ⊢
    cases h
    rfl

end Engine.Loader

section FirstLoaded

variable (l : Loader) (v : Variant)

/-- Later events do not count once a script is loaded; before that, each change of files does. -/
theorem firstLoaded?_append (events later : List Event) : ∀ w : World,
    firstLoaded? l v w (events ++ later) =
      (firstLoaded? l v w events).or (firstLoaded? l v (worldAfter w events) later) := by
  induction events with
  | nil => intro w; rfl
  | cons event events ih =>
    intro w
    rw [List.cons_append, firstLoaded?, ih, firstLoaded?, Option.or_assoc]
    rfl

/-- The script of the first check that could load one: no check before it could. -/
theorem firstLoaded?_eq_some {w : World} {events : List Event} {s : Script} :
    firstLoaded? l v w events = some s ↔ ∃ before text later,
      events = before ++ .check text :: later ∧ firstLoaded? l v w before = none ∧
        (l.load (worldAfter w before) (.choice (.variant v))).1 = .ok s := by
  constructor
  · intro h
    induction events generalizing w with
    | nil => cases h
    | cons event events ih =>
      rw [firstLoaded?] at h
      cases hevent : event.loaded? l v w with
      | none =>
        rw [hevent, Option.none_or] at h
        obtain ⟨before, text, later, rfl, hbefore, hload⟩ := ih h
        refine ⟨event :: before, text, later, rfl, ?_, hload⟩
        rw [firstLoaded?, hevent, Option.none_or, hbefore]
      | some s' =>
        rw [hevent, Option.some_or] at h
        cases h
        cases event with
        | check text =>
          refine ⟨[], text, events, rfl, rfl, ?_⟩
          rw [Event.loaded?] at hevent
          cases hload : (l.load w (.choice (.variant v))).1 with
          | ok s' =>
            rw [hload] at hevent
            cases hevent
            exact hload
          | error fault =>
            rw [hload] at hevent
            cases hevent
        | _ => cases hevent
  · rintro ⟨before, text, later, rfl, hbefore, hload⟩
    rw [firstLoaded?_append, hbefore, Option.none_or, firstLoaded?, Event.loaded?, hload]
    rfl

end FirstLoaded

namespace Checker

/-- The script that a checker has after a history. -/
def pinned? (c : Checker) (w : World) (events : List Event) : Option Script :=
  c.script.or (firstLoaded? c.loader c.variant w events)

/-- The script for a check after a history: the one that the checker has, else what the loader
gives for the files of that time. -/
def scriptAfter (c : Checker) (w : World) (events : List Event) : Except Fault Script :=
  match c.pinned? w events with
  | some s => .ok s
  | none => (c.loader.load (worldAfter w events) (.choice (.variant c.variant))).1

variable {c : Checker} {w : World} {text : String}

/-- What a checker that has no script would load. -/
theorem pinScript_none (h : c.script = none) :
    (c.pinScript w).1 = (c.loader.load w (.choice (.variant c.variant))).1 := by
  rw [pinScript, h]
  dsimp only
  obtain ⟨r, w'⟩ := c.loader.load w (.choice (.variant c.variant))
  cases r <;> rfl

theorem pinScript_some {s : Script} (h : c.script = some s) : c.pinScript w = (.ok s, c, w) := by
  rw [pinScript, h]

/-- A check keeps the script that it found, and changes nothing where it found none. -/
theorem run_cases (c : Checker) (w : World) (text : String) :
    (∃ s, (c.pinScript w).1 = .ok s ∧ (c.run w text).2.1 = { c with script := some s } ∧
      (c.run w text).1 =
        (runIsolated s c.store.snapshot text (.ofSettings c.settings) c.settings.policy).1) ∨
    ∃ fault, (c.pinScript w).1 = .error fault ∧ c.run w text = (.error fault, c, w) := by
  have hran : ∀ {s w'}, c.pinScript w = (.ok s, { c with script := some s }, w') →
      (c.run w text).2.1 = { c with script := some s } ∧ (c.run w text).1 =
        (runIsolated s c.store.snapshot text (.ofSettings c.settings) c.settings.policy).1 := by
    intro s w' h
    simp only [run, runOn, h, runIsolated]
    cases runIsolatedOn unmetered s c.store.snapshot text (.ofSettings c.settings)
        c.settings.policy with
    | mk r journal => cases r <;> exact ⟨rfl, rfl⟩
  cases hscript : c.script with
  | some s =>
    have hpin := pinScript_some (w := w) hscript
    refine .inl ⟨s, by rw [hpin], @hran s w ?_⟩
    rw [hpin, ← hscript]
  | none =>
    cases hload : c.loader.load w (.choice (.variant c.variant)) with
    | mk r w' =>
      cases r with
      | ok s =>
        have hpin : c.pinScript w = (.ok s, { c with script := some s }, w') := by
          rw [pinScript, hscript, hload]
        exact .inl ⟨s, by rw [hpin], hran hpin⟩
      | error fault =>
        have hpin : c.pinScript w = (.error fault, c, w) := by
          simp only [pinScript, hscript, Loader.load_unchanged (congrArg Prod.fst hload)]
        exact .inr ⟨fault, by rw [hpin], by simp only [run, runOn, hpin]⟩

theorem run_eq (c : Checker) (w : World) (text : String) :
    (c.run w text).1 = (c.pinScript w).1.bind fun s =>
      (runIsolated s c.store.snapshot text (.ofSettings c.settings) c.settings.policy).1 := by
  obtain ⟨s, hpin, _, hrun⟩ | ⟨fault, hpin, hrun⟩ := run_cases c w text
  · rw [hrun, hpin]
    rfl
  · rw [hrun, hpin]
    rfl

theorem check_run (c : Checker) (w : World) (text : String) :
    c.check w text = ((c.run w text).1.bind fun r => Diagnostic.report r.diagnostics,
      (c.run w text).2) := by
  simp only [check, checkOn, run]
  obtain ⟨r, c', w'⟩ := c.runOn unmetered w text
  cases r <;> rfl

end Checker

namespace Session

open Checker

theorem perform_check (c : Checker) (w : World) (text : String) :
    perform ⟨c, w⟩ (.check text) = ⟨(c.run w text).2.1, (c.run w text).2.2⟩ := by
  rw [perform, check_run]

/-- One event: the options take its write, and a checker without a script takes what it loads. As
long as it has none, the event changes the files as it says. -/
theorem perform_eq (c : Checker) (w : World) (event : Event) :
    ∃ w', perform ⟨c, w⟩ event =
        ⟨{ c with
          store := event.writeOption c.store
          script := c.script.or (event.loaded? c.loader c.variant w) }, w'⟩ ∧
      (c.script.or (event.loaded? c.loader c.variant w) = none → w' = event.changeFiles w) := by
  cases event with
  | check text =>
    have hkept : c.script.or ((Event.check text).loaded? c.loader c.variant w) =
        (c.pinScript w).1.toOption := by
      cases hscript : c.script with
      | some s => rw [pinScript_some hscript, Option.some_or, Except.toOption]
      | none => rw [pinScript_none hscript, Option.none_or, Event.loaded?]
    rw [perform_check, hkept]
    obtain ⟨s, hpin, hchecker, _⟩ | ⟨fault, hpin, hrun⟩ := run_cases c w text
    · rw [hpin, hchecker]
      exact ⟨_, rfl, fun h => by cases h⟩
    · rw [hpin, Except.toOption] at hkept ⊢
      obtain ⟨hnone, _⟩ := Option.or_eq_none_iff.1 hkept
      rw [hrun, ← hnone]
      exact ⟨w, rfl, fun _ => rfl⟩
  | _ => exact ⟨_, by simp only [Event.loaded?, Option.or_none]; rfl, fun _ => rfl⟩

/-- A checker and the files after a history: the options as they were written, the script of the
first check that could load one, and, as long as there is none, the files as they were changed. -/
theorem after_eq (events : List Event) : ∀ (c : Checker) (w : World),
    (after ⟨c, w⟩ events).checker =
        { c with store := storeAfter c.store events, script := c.pinned? w events } ∧
      (c.pinned? w events = none → (after ⟨c, w⟩ events).world = worldAfter w events) := by
  induction events with
  | nil =>
    intro c w
    refine ⟨?_, fun _ => rfl⟩
    rw [pinned?, firstLoaded?, Option.or_none]
    rfl
  | cons event events ih =>
    intro c w
    have hafter : after ⟨c, w⟩ (event :: events) = after (perform ⟨c, w⟩ event) events := rfl
    have hpinned : c.pinned? w (event :: events) =
        (c.script.or (event.loaded? c.loader c.variant w)).or
          (firstLoaded? c.loader c.variant (event.changeFiles w) events) := by
      rw [pinned?, firstLoaded?, Option.or_assoc]
    obtain ⟨w', hstep, hfiles⟩ := perform_eq c w event
    obtain ⟨hchecker, hworld⟩ := ih _ w'
    rw [← hstep, ← hafter, pinned?] at hchecker hworld
    rw [hpinned]
    -- the files that the rest of the history starts from matter only without a script
    cases hscript : c.script.or (event.loaded? c.loader c.variant w) with
    | some s =>
      rw [hscript] at hchecker
      exact ⟨hchecker, fun h => by cases h⟩
    | none =>
      obtain rfl := hfiles hscript
      rw [hscript] at hchecker hworld
      exact ⟨hchecker, hworld⟩

end Session

namespace Checker

/-- The outcomes of checks do not depend on each other. After any history, a check is a run in a
context of its own: on its text, with the options as they were written until then, and with the
script of the first check that could load one. As long as there is none, the script is looked for
in the files of the time of the check; once there is one, it is the script of every later check,
whatever happens to the files. -/
theorem checks_apart (c : Checker) (w : World) (events : List Event) (text : String) :
    let now := Session.after ⟨c, w⟩ events
    let outcome := (c.scriptAfter w events).bind fun s =>
      (runIsolated s (storeAfter c.store events).snapshot text (.ofSettings c.settings)
        c.settings.policy).1
    (now.checker.run now.world text).1 = outcome ∧
    (now.checker.check now.world text).1 =
      outcome.bind (fun r => Diagnostic.report r.diagnostics) ∧
    ∀ s, c.pinned? w events = some s → ∀ later, c.scriptAfter w (events ++ later) = .ok s := by
  intro now outcome
  obtain ⟨hchecker, hworld⟩ := Session.after_eq events c w
  have hscript : (now.checker.pinScript now.world).1 = c.scriptAfter w events := by
    rw [scriptAfter, hchecker]
    cases hpinned : c.pinned? w events with
    | some s => rw [pinScript_some rfl]
    | none => rw [pinScript_none rfl, hworld hpinned]
  have hrun : (now.checker.run now.world text).1 = outcome := by
    rw [run_eq, hscript, hchecker]
  refine ⟨hrun, ?_, ?_⟩
  · rw [check_run, hrun]
  · intro s hs later
    rw [scriptAfter, pinned?, firstLoaded?_append, ← Option.or_assoc, ← pinned?, hs, Option.some_or]

/-- A world without files. -/
def emptyWorld : World := ⟨⟨1, []⟩, ⟨1, []⟩, [], .empty, [], []⟩

/-- A script that reports nothing, and a history in which it is installed, found and removed. -/
def silentFile : Path := ⟨1, ["jshint.js"]⟩

def silentScript : Script :=
  ⟨.jshint, silentFile, "", Digest.textDigest "", .reporting "JSHINT" (.arr [])⟩

def installed : List Event :=
  [.check "a", .write silentFile (.program silentScript.program), .set "indent" (.int 2),
    .check "b"]

def removed : List Event := [.delete silentFile, .clearCache, .assign "indent" (.int 8)]

/-- The second check finds the script, the first one does not. -/
theorem firstLoaded?_installed :
    firstLoaded? ⟨⟨1, []⟩⟩ .jshint emptyWorld installed = some silentScript := by
  have hplace : ∀ w : World, w.cwd = ⟨1, []⟩ → (Loader.mk ⟨1, []⟩).HasPlace w .jshint := by
    intro w hw
    rw [Loader.HasPlace, World.absolute, hw]
    rfl
  have hmissing := Loader.load_missing (hplace emptyWorld rfl) rfl
  have hloads : (Loader.mk ⟨1, []⟩).Loads
      (emptyWorld.writeFile silentFile (.program silentScript.program)) .jshint silentScript :=
    .read (t := ⟨"", silentScript.program⟩) (hplace _ rfl) rfl rfl rfl
  obtain ⟨w', hload⟩ := Loader.load_loads hloads
  simp only [installed, firstLoaded?, Event.loaded?, Event.changeFiles, hmissing, hload,
    Except.toOption, Option.none_or, Option.some_or]

theorem pinned_installed (v : Value) :
    (createdChecker v).pinned? emptyWorld installed = some silentScript := by
  simp only [pinned?, createdChecker, Option.none_or, firstLoaded?_installed]

theorem checks_apart_removed :
    let c := createdChecker (.int 4)
    let now := Session.after ⟨c, emptyWorld⟩ (installed ++ removed)
    let store := storeAfter c.store (installed ++ removed)
    c.pinned? emptyWorld installed = some silentScript ∧
      store.get "indent" = .ok (.int 8) ∧
      (now.checker.run now.world "c").1 =
        (runIsolated silentScript store.snapshot "c" (.ofSettings c.settings)
          c.settings.policy).1 := by
  intro c now store
  have hpinned := pinned_installed (.int 4)
  have hscript := (checks_apart c emptyWorld installed "c").2.2 _ hpinned removed
  have hrun := (checks_apart c emptyWorld (installed ++ removed) "c").1
  rw [hscript, Except.bind] at hrun
  exact ⟨hpinned, rfl, hrun⟩

end Checker

end ScriptLint
