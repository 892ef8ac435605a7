import Mathlib.Data.List.Induction
import Mathlib.Data.List.Nodup
import Mathlib.Data.List.Perm.Subperm
import ScriptLint.Proofs.Places
import ScriptLint.Proofs.Scripts

/-!
# ScriptLint.Proofs.ScriptCache

What loading a script gives after any history of loads, changes of files and clearings of the cache.
A script is the text of the first load that could read it, as long as its file is there.

* `ScriptEvent`, `World.after`: what can happen, and what comes of it
* `World.filesAfter`: the files, from the changes of files only
* `World.FirstRead`, `World.Unread`: what the first load of a path read, if there was one
* `Loader.load_outcome`: one load
* `World.Recalls`: what the cache says of the history, kept by every event
* `Loader.load_history`: a load, and the scripts listed, after a history
-/

namespace ScriptLint

open Engine

/-- What can happen to scripts. -/
inductive ScriptEvent where
  | write (p : Path) (content : Content)
  | delete (p : Path)
  | clear
  | load (l : Loader) (name : Value)

namespace FileTree

/-- The script in a file that is a text. -/
def scriptAt? (t : FileTree) (p : Path) : Option ScriptText :=
  match t.read p with
  | .ok content => (ScriptText.ofContent content).toOption
  | .error _ => none

/-- Why there is no text in a file. -/
inductive Unreadable (t : FileTree) (p : Path) : Fault → Prop
  | locked (hlocked : t.locate p = .ok .locked) : t.Unreadable p (.file .denied p)
  | garbled {content : Content} {flaw : Text.Utf8.Flaw} (hread : t.read p = .ok content)
    (htext : ScriptText.ofContent content = .error flaw) : t.Unreadable p (.undecodable flaw)

variable {t : FileTree} {p : Path} {f : Fault}

theorem scriptAt?_none (h : t.isFile p = false) : t.scriptAt? p = none := by
  rw [scriptAt?]
  cases hread : t.read p with
  | error e => rfl
  | ok content =>
    rw [(isFile_iff t p).2 (.inl ⟨content, hread⟩)] at h
    cases h

theorem Unreadable.scriptAt? (h : t.Unreadable p f) : t.scriptAt? p = none := by
  cases h with
  | locked hlocked => rw [FileTree.scriptAt?, read_locked hlocked]
  | garbled hread htext =>
    rw [FileTree.scriptAt?, hread]
    simp only [htext, Except.toOption]

theorem Unreadable.noScript (h : t.Unreadable p f) : f.faultClass ≠ .engineNotFound := by
  cases h <;> exact FaultClass.noConfusion

end FileTree

namespace ScriptEvent

def changeFiles (cwd : Path) (t : FileTree) : ScriptEvent → FileTree
  | write p content => t.write (p.resolve cwd) content
  | delete p => t.delete (p.resolve cwd)
  | _ => t

/-- The path of the script that is loaded, if an edition is named and its path can be followed. -/
def path? (cwd : Path) : ScriptEvent → Option Path
  | load l name =>
    match resolveVariant name with
    | .ok v => (l.pathOf v).follow? cwd
    | .error _ => none
  | _ => none

/-- The script that a load finds in the file at a path. -/
def found? (cwd : Path) (t : FileTree) (p : Path) (e : ScriptEvent) : Option ScriptText :=
  if e.path? cwd = some p then t.scriptAt? p else none

/-- Notes each path that is loaded from, once; a clearing starts anew. -/
def note (cwd : Path) (paths : List Path) : ScriptEvent → List Path
  | clear => []
  | e => (e.path? cwd).elim paths paths.insert

end ScriptEvent

namespace World

def perform (w : World) : ScriptEvent → World
  | .write p content => w.writeFile p content
  | .delete p => w.deleteFile p
  | .clear => Loader.clearCache w
  | .load l name => (l.load w name).2

def after (w : World) (events : List ScriptEvent) : World := events.foldl perform w

/-- The files after a history: loads and clearings leave them alone. -/
def filesAfter (w : World) (events : List ScriptEvent) : FileTree :=
  events.foldl (ScriptEvent.changeFiles w.cwd) w.tree

def recentPaths (w : World) (events : List ScriptEvent) : List Path :=
  events.foldl (ScriptEvent.note w.cwd) []

/-- Since the cache was last cleared, no load of a path found a script. -/
def Unread (w : World) (events : List ScriptEvent) (p : Path) : Prop :=
  ∀ before e later, events = before ++ e :: later →
    (e.found? w.cwd (w.filesAfter before) p).isSome = true → ScriptEvent.clear ∈ later

/-- Since the cache was last cleared, the first load of a path that found a script found this one,
in the files of that time. -/
def FirstRead (w : World) (events : List ScriptEvent) (p : Path) (s : ScriptText) : Prop :=
  ∃ before e later, events = before ++ e :: later ∧ ScriptEvent.clear ∉ later ∧
    w.Unread before p ∧ e.found? w.cwd (w.filesAfter before) p = some s

section Histories

variable {w : World} {events : List ScriptEvent} {e : ScriptEvent} {p : Path} {s : ScriptText}

theorem after_concat (w : World) (events : List ScriptEvent) (e : ScriptEvent) :
    w.after (events ++ [e]) = (w.after events).perform e := by
  rw [after, List.foldl_append]
  rfl

theorem filesAfter_concat (w : World) (events : List ScriptEvent) (e : ScriptEvent) :
    w.filesAfter (events ++ [e]) = e.changeFiles w.cwd (w.filesAfter events) := by
  rw [filesAfter, List.foldl_append]
  rfl

theorem recentPaths_concat (w : World) (events : List ScriptEvent) (e : ScriptEvent) :
    w.recentPaths (events ++ [e]) = e.note w.cwd (w.recentPaths events) := by
  rw [recentPaths, List.foldl_append]
  rfl

theorem perform_files (w : World) (e : ScriptEvent) :
    (w.perform e).cwd = w.cwd ∧ (w.perform e).tree = e.changeFiles w.cwd w.tree := by
  cases e with
  | load l name => exact Loader.sameFiles_load l w name
  | _ => exact ⟨rfl, rfl⟩

theorem after_files (w : World) (events : List ScriptEvent) :
    (w.after events).cwd = w.cwd ∧ (w.after events).tree = w.filesAfter events := by
  induction events using List.reverseRecOn with
  | nil => exact ⟨rfl, rfl⟩
  | append_singleton events e ih =>
    obtain ⟨hcwd, htree⟩ := perform_files (w.after events) e
    rw [after_concat, filesAfter_concat, hcwd, htree, ih.1, ih.2]
    exact ⟨rfl, rfl⟩

theorem unread_nil (w : World) (p : Path) : w.Unread [] p := by
  intro before e later h
  cases before <;> cases h

theorem unread_clear (w : World) (events : List ScriptEvent) (p : Path) :
    w.Unread (events ++ [.clear]) p := by
  intro before e later h hfound
  obtain rfl | ⟨front, last, rfl⟩ := List.eq_nil_or_concat later
  · obtain ⟨_, hlast⟩ := List.append_inj' h rfl
    cases hlast
    cases hfound
  · rw [List.concat_eq_append, ← List.cons_append, ← List.append_assoc] at h
    obtain ⟨_, hlast⟩ := List.append_inj' h rfl
    rw [List.concat_eq_append, ← hlast]
    exact List.mem_append_right _ (List.mem_singleton_self _)

/-- A load that finds nothing, and any other event, leaves a path unread. -/
theorem Unread.concat (h : w.Unread events p)
    (hnone : e.found? w.cwd (w.filesAfter events) p = none) : w.Unread (events ++ [e]) p := by
  intro before e' later heq hfound
  obtain rfl | ⟨front, last, rfl⟩ := List.eq_nil_or_concat later
  · obtain ⟨rfl, hlast⟩ := List.append_inj' heq rfl
    cases hlast
    rw [hnone] at hfound
    cases hfound
  · rw [List.concat_eq_append, ← List.cons_append, ← List.append_assoc] at heq
    obtain ⟨rfl, _⟩ := List.append_inj' heq rfl
    rw [List.concat_eq_append]
    exact List.mem_append_left _ (h before e' front rfl hfound)

/-- Only clearing the cache undoes a first read. -/
theorem FirstRead.concat (h : w.FirstRead events p s) (he : e ≠ .clear) :
    w.FirstRead (events ++ [e]) p s := by
  obtain ⟨before, e', later, rfl, hclear, hunread, hfound⟩ := h
  refine ⟨before, e', later ++ [e], by simp, ?_, hunread, hfound⟩
  rw [List.mem_append, List.mem_singleton, not_or]
  exact ⟨hclear, Ne.symm he⟩

theorem Unread.firstRead (h : w.Unread events p)
    (hfound : e.found? w.cwd (w.filesAfter events) p = some s) :
    w.FirstRead (events ++ [e]) p s :=
  ⟨events, e, [], rfl, List.not_mem_nil, h, hfound⟩

end Histories

end World

namespace Engine.Loader

variable {l : Loader} {w : World} {name : Value} {v : Variant}

/-- A script as it was kept. -/
def scriptOf (v : Variant) (c : CachedScript) : Script :=
  ⟨v, c.path, c.script.text, c.digest, c.script.program⟩

/-- What is kept of a script that is read from a path. -/
def keep (p : Path) (s : ScriptText) : CachedScript := ⟨p, s, Digest.textDigest s.text⟩

theorem find?_path (cache : List CachedScript) (p : Path) :
    (∃ c ∈ cache, c.path = p ∧ cache.find? (·.path == p) = some c) ∨
      (p ∉ cache.map CachedScript.path ∧ cache.find? (·.path == p) = none) := by
  cases hfind : cache.find? (·.path == p) with
  | some c =>
    have hpath := List.find?_some hfind
    exact .inl ⟨c, List.mem_of_find?_eq_some hfind, by simpa using hpath, rfl⟩
  | none =>
    rw [List.find?_eq_none] at hfind
    refine .inr ⟨?_, rfl⟩
    rw [List.mem_map]
    rintro ⟨c, hc, hpath⟩
    exact hfind c hc (by simpa using hpath)

theorem load_of_cachedRead {r : Except Fault CachedScript} {w' : World}
    (hname : resolveVariant name = .ok v) (hplace : l.HasPlace w v)
    (hfile : w.tree.isFile (l.scriptFile w v) = true)
    (hcached : cachedRead w (l.scriptFile w v) = (r, w')) :
    (∃ f, r = .error f ∧ l.load w name = (.error f, w')) ∨
    ∃ c, r = .ok c ∧ (l.load w name).2.cache = w'.cache ∧ (l.load w name).1 =
      .ok ⟨v, l.scriptFile w v, c.script.text, c.digest, c.script.program⟩ := by
  simp only [load, hname, follow_pathOf hplace, hfile, if_true, hcached]
  cases r with
  | error f => exact .inl ⟨f, rfl, rfl⟩
  | ok c => exact .inr ⟨c, rfl, rfl, rfl⟩

/-- What is read now and was not kept. -/
theorem cachedRead_new (hplace : l.HasPlace w v)
    (hfile : w.tree.isFile (l.scriptFile w v) = true)
    (hkept : w.cache.find? (·.path == l.scriptFile w v) = none) :
    (∃ s, w.tree.scriptAt? (l.scriptFile w v) = some s ∧
      cachedRead w (l.scriptFile w v) = (.ok (keep (l.scriptFile w v) s), { w with
        cache := (keep (l.scriptFile w v) s :: w.cache).take cacheSize })) ∨
    ∃ f, w.tree.Unreadable (l.scriptFile w v) f ∧
      cachedRead w (l.scriptFile w v) = (.error f, w) := by
  have hnul := hasNul_scriptFile hplace
  obtain ⟨content, hread⟩ | hlocked := (FileTree.isFile_iff _ _).1 hfile
  · have hnow : w.tree.read (w.absolute (l.scriptFile w v)) = .ok content := hread
    cases htext : ScriptText.ofContent content with
    | ok s =>
      refine .inl ⟨s, ?_, ?_⟩
      · rw [FileTree.scriptAt?, hread]
        simp only [htext, Except.toOption]
      · rw [cachedRead, hkept, World.readScriptText, hnul, hnow]
        simp only [htext]
        rfl
    | error flaw =>
      exact .inr ⟨_, .garbled hread htext, cachedRead_garbled hnul hkept hread htext⟩
  · exact .inr ⟨_, .locked hlocked, cachedRead_locked hnul hkept hlocked⟩

/-- One load of an edition: its path cannot be followed, its file is missing, or the script was
kept, or it is read now and kept, or it cannot be read. The cache changes only where there is a
script. -/
theorem load_outcome (hname : resolveVariant name = .ok v) :
    (¬ l.HasPlace w v ∧ l.load w name = (.error .nulInPath, w)) ∨
    l.HasPlace w v ∧
    ((w.tree.isFile (l.scriptFile w v) = false ∧
      l.load w name = (.error (.scriptMissing name.text (l.scriptFile w v)), w)) ∨
    (w.tree.isFile (l.scriptFile w v) = true ∧ ∃ c ∈ w.cache, c.path = l.scriptFile w v ∧
      (l.load w name).1 = .ok (scriptOf v c) ∧
      (l.load w name).2.cache = c :: w.cache.filter (·.path != l.scriptFile w v)) ∨
    (w.tree.isFile (l.scriptFile w v) = true ∧
      l.scriptFile w v ∉ w.cache.map CachedScript.path ∧
      ∃ s, w.tree.scriptAt? (l.scriptFile w v) = some s ∧
        (l.load w name).1 = .ok (scriptOf v (keep (l.scriptFile w v) s)) ∧
        (l.load w name).2.cache = (keep (l.scriptFile w v) s :: w.cache).take cacheSize) ∨
    (w.tree.isFile (l.scriptFile w v) = true ∧
      l.scriptFile w v ∉ w.cache.map CachedScript.path ∧
      ∃ f, w.tree.Unreadable (l.scriptFile w v) f ∧ l.load w name = (.error f, w))) := by
  by_cases hplace : l.HasPlace w v
  · refine .inr ⟨hplace, ?_⟩
    cases hfile : w.tree.isFile (l.scriptFile w v) with
    | false =>
      refine .inl ⟨rfl, ?_⟩
      simp only [load, hname, follow_pathOf hplace, hfile, Bool.false_eq_true, if_false]
    | true =>
      obtain ⟨c, hc, hpath, hfind⟩ | ⟨hpath, hfind⟩ :=
        find?_path w.cache (l.scriptFile w v)
      · have hcached : cachedRead w (l.scriptFile w v) = (.ok c, { w with
            cache := c :: w.cache.filter (·.path != l.scriptFile w v) }) := by
          rw [cachedRead, hfind]
        obtain ⟨_, hr, _⟩ | ⟨_, hr, hcache, hload⟩ :=
          load_of_cachedRead hname hplace hfile hcached
        · cases hr
        · cases hr
          refine .inr (.inl ⟨rfl, c, hc, hpath, ?_, hcache⟩)
          rw [hload, scriptOf, hpath]
      · obtain ⟨s, hs, hcached⟩ | ⟨f, hunreadable, hcached⟩ := cachedRead_new hplace hfile hfind
        · obtain ⟨_, hr, _⟩ | ⟨_, hr, hcache, hload⟩ :=
            load_of_cachedRead hname hplace hfile hcached
          · cases hr
          · cases hr
            exact .inr (.inr (.inl ⟨rfl, hpath, s, hs, hload, hcache⟩))
        · obtain ⟨_, hr, hload⟩ | ⟨_, hr, _⟩ := load_of_cachedRead hname hplace hfile hcached
          · cases hr
            exact .inr (.inr (.inr ⟨rfl, hpath, f, hunreadable, hload⟩))
          · cases hr
  · refine .inl ⟨hplace, ?_⟩
    simp only [load, hname, World.follow_eq, if_pos (eq_true_of_ne_false hplace)]

/-- Whether a script is missing is not a matter of the cache. -/
theorem load_missing_iff (hname : resolveVariant name = .ok v) :
    (∃ f, (l.load w name).1 = .error f ∧ f.faultClass = .engineNotFound) ↔
      l.HasPlace w v ∧ w.tree.isFile (l.scriptFile w v) = false := by
  obtain ⟨hplace, hload⟩ | ⟨hplace, ⟨hfile, hload⟩ | ⟨hfile, _, _, _, hload, _⟩ |
      ⟨hfile, _, _, _, hload, _⟩ | ⟨hfile, _, _, hunreadable, hload⟩⟩ :=
    load_outcome (l := l) (w := w) hname
  · simp [hload, hplace, Fault.faultClass]
  · simp [hload, hfile, hplace, Fault.faultClass]
  · simp [hload, hfile]
  · simp [hload, hfile]
  · simp [hload, hfile, hunreadable.noScript]

/-- A load that fails leaves everything as it is. -/
theorem load_error_world {f : Fault} (hname : resolveVariant name = .ok v)
    (h : (l.load w name).1 = .error f) : (l.load w name).2 = w := by
  obtain ⟨_, hload⟩ | ⟨_, ⟨_, hload⟩ | ⟨_, _, _, _, hload, _⟩ | ⟨_, _, _, _, hload, _⟩ |
      ⟨_, _, _, _, hload⟩⟩ := load_outcome (l := l) (w := w) hname
  · rw [hload]
  · rw [hload]
  · rw [hload] at h
    cases h
  · rw [hload] at h
    cases h
  · rw [hload]

end Engine.Loader

namespace World

open Loader

variable {w : World} {events : List ScriptEvent} {e : ScriptEvent} {cache : List CachedScript}
  {p : Path} {s : ScriptText}

/-- A cache says of a history what the first load of each path read. -/
structure Recalls (w : World) (events : List ScriptEvent) (cache : List CachedScript) : Prop where
  nodup : (cache.map CachedScript.path).Nodup
  recent : ∀ c ∈ cache, c.path ∈ w.recentPaths events
  read : ∀ c ∈ cache, ∃ p s, c = keep p s ∧ w.FirstRead events p s
  unread : ∀ p, p ∉ cache.map CachedScript.path → w.Unread events p

/-- There is room for the paths that were loaded from. -/
theorem Recalls.length_le (h : w.Recalls events cache) :
    cache.length ≤ (w.recentPaths events).length := by
  have hsubset : cache.map CachedScript.path ⊆ w.recentPaths events := by
    intro p hp
    obtain ⟨c, hc, rfl⟩ := List.mem_map.1 hp
    exact h.recent c hc
  have hlength := (List.subperm_of_subset h.nodup hsubset).length_le
  rwa [List.length_map] at hlength

theorem recalls_clear (w : World) (events : List ScriptEvent) :
    w.Recalls (events ++ [.clear]) [] :=
  ⟨List.nodup_nil, by simp, by simp, fun p _ => unread_clear w events p⟩

theorem note_eq {cwd : Path} (paths : List Path) (he : e ≠ .clear) :
    e.note cwd paths = (e.path? cwd).elim paths paths.insert := by
  cases e with
  | clear => exact absurd rfl he
  | _ => rfl

theorem mem_note {cwd : Path} {paths : List Path} (he : e ≠ .clear) :
    p ∈ e.note cwd paths ↔ e.path? cwd = some p ∨ p ∈ paths := by
  rw [note_eq paths he]
  cases e.path? cwd with
  | none => simp
  | some q => simp [eq_comm]

theorem length_le_note {cwd : Path} (paths : List Path) (he : e ≠ .clear) :
    paths.length ≤ (e.note cwd paths).length := by
  rw [note_eq paths he]
  cases e.path? cwd with
  | none => exact Nat.le_refl _
  | some q => exact List.length_le_length_insert

/-- An event that finds no script, apart from a clearing, is nothing new to the cache. -/
theorem Recalls.still (h : w.Recalls events cache) (he : e ≠ .clear)
    (hnone : ∀ p, p ∉ cache.map CachedScript.path →
      e.found? w.cwd (w.filesAfter events) p = none) : w.Recalls (events ++ [e]) cache := by
  refine ⟨h.nodup, ?_, ?_, ?_⟩
  · intro c hc
    rw [recentPaths_concat]
    exact (mem_note he).2 (.inr (h.recent c hc))
  · intro c hc
    obtain ⟨p, s, hkeep, hfirst⟩ := h.read c hc
    exact ⟨p, s, hkeep, hfirst.concat he⟩
  · intro p hp
    exact (h.unread p hp).concat (hnone p hp)

/-- What the cache says does not depend on its order. -/
theorem Recalls.perm {cache' : List CachedScript} (h : w.Recalls events cache)
    (hperm : cache.Perm cache') : w.Recalls events cache' := by
  have hpaths := hperm.map CachedScript.path
  refine ⟨hpaths.nodup_iff.1 h.nodup, ?_, ?_, ?_⟩
  · intro c hc
    exact h.recent c (hperm.mem_iff.2 hc)
  · intro c hc
    exact h.read c (hperm.mem_iff.2 hc)
  · intro p hp
    exact h.unread p (fun hmem => hp (hpaths.mem_iff.1 hmem))

/-- A script that is found for the first time is kept. -/
theorem Recalls.cons (h : w.Recalls events cache) (hp : p ∉ cache.map CachedScript.path)
    (he : e ≠ .clear) (hpath : e.path? w.cwd = some p)
    (hfound : e.found? w.cwd (w.filesAfter events) p = some s) :
    w.Recalls (events ++ [e]) (keep p s :: cache) := by
  refine ⟨?_, ?_, ?_, ?_⟩
  · rw [List.map_cons, List.nodup_cons]
    exact ⟨hp, h.nodup⟩
  · rw [recentPaths_concat, List.forall_mem_cons]
    exact ⟨(mem_note he).2 (.inl hpath), fun c hc => (mem_note he).2 (.inr (h.recent c hc))⟩
  · rw [List.forall_mem_cons]
    refine ⟨⟨p, s, rfl, (h.unread p hp).firstRead hfound⟩, fun c hc => ?_⟩
    obtain ⟨q, t, hkeep, hfirst⟩ := h.read c hc
    exact ⟨q, t, hkeep, hfirst.concat he⟩
  · intro q hq
    rw [List.map_cons, List.mem_cons, not_or] at hq
    refine (h.unread q hq.2).concat ?_
    rw [ScriptEvent.found?, hpath, if_neg]
    rintro ⟨⟩
    exact hq.1 rfl

/-- Bringing what was used last to the front leaves the cache as it is otherwise. -/
theorem Recalls.touched {c : CachedScript} (h : w.Recalls events cache) (hc : c ∈ cache) :
    cache.Perm (c :: cache.filter (·.path != c.path)) := by
  have hnodup : cache.Nodup := List.Nodup.of_map CachedScript.path h.nodup
  rw [List.perm_ext_iff_of_nodup hnodup]
  · intro x
    rw [List.mem_cons, List.mem_filter, bne_iff_ne]
    constructor
    · intro hx
      by_cases heq : x.path = c.path
      · exact .inl (List.inj_on_of_nodup_map h.nodup hx hc heq)
      · exact .inr ⟨hx, heq⟩
    · rintro (rfl | ⟨hx, _⟩)
      · exact hc
      · exact hx
  · rw [List.nodup_cons]
    refine ⟨?_, hnodup.filter _⟩
    rw [List.mem_filter, bne_self_eq_false]
    exact fun hmem => Bool.false_ne_true hmem.2

/-- A load looks at no other path than that of its script. -/
theorem found?_ne {cwd : Path} {t : FileTree} (h : e.path? cwd ≠ some p) :
    e.found? cwd t p = none := by
  rw [ScriptEvent.found?, if_neg h]

theorem path?_load {l : Loader} {name : Value} {v : Variant} (hname : resolveVariant name = .ok v)
    (hplace : l.HasPlace w v) :
    (ScriptEvent.load l name).path? w.cwd = some (l.scriptFile w v) := by
  have hnul : (w.cwd.join (l.pathOf v)).hasNul = false := hplace
  rw [ScriptEvent.path?, hname]
  simp only [Path.follow?, hnul]
  rfl

theorem found?_load {l : Loader} {name : Value} {v : Variant} (hname : resolveVariant name = .ok v)
    (hplace : l.HasPlace w v) (t : FileTree) :
    (ScriptEvent.load l name).found? w.cwd t (l.scriptFile w v) =
      t.scriptAt? (l.scriptFile w v) := by
  rw [ScriptEvent.found?, path?_load hname hplace, if_pos rfl]

/-- A load that fails before it has a path finds nothing, whatever is kept. -/
theorem Recalls.lost {l : Loader} {name : Value} (h : w.Recalls events cache)
    (hpath : (ScriptEvent.load l name).path? w.cwd = none) :
    w.Recalls (events ++ [.load l name]) cache := by
  refine h.still ScriptEvent.noConfusion fun p _ => found?_ne ?_
  rw [hpath]
  exact Option.some_ne_none p ∘ Eq.symm

/-- A load keeps what the cache says. -/
theorem recalls_load {l : Loader} {name : Value} (h : w.Recalls events (w.after events).cache)
    (hfew : (w.recentPaths (events ++ [.load l name])).length ≤ cacheSize) :
    w.Recalls (events ++ [.load l name]) (l.load (w.after events) name).2.cache := by
  have he : ScriptEvent.load l name ≠ .clear := ScriptEvent.noConfusion
  obtain ⟨hcwd, htree⟩ := after_files w events
  cases hname : resolveVariant name with
  | error f =>
    have hload : l.load (w.after events) name = (.error f, w.after events) := by
      rw [load, hname]
    rw [hload]
    exact h.lost (by rw [ScriptEvent.path?, hname])
  | ok v =>
    obtain ⟨hplace, hload⟩ | ⟨hplace, houtcome⟩ :=
      load_outcome (l := l) (w := w.after events) hname
    · rw [hload]
      refine h.lost ?_
      have hnul : (w.cwd.join (l.pathOf v)).hasNul = true :=
        hcwd ▸ eq_true_of_ne_false hplace
      rw [ScriptEvent.path?, hname]
      exact if_pos hnul
    · have hpath := path?_load (w := w.after events) (l := l) hname hplace
      have hhere := found?_load (w := w.after events) (l := l) hname hplace (w.filesAfter events)
      rw [hcwd] at hpath hhere
      -- of all paths, a load can find something new at that of its script only
      have hstill : (w.filesAfter events).scriptAt? (l.scriptFile (w.after events) v) = none →
          w.Recalls (events ++ [.load l name]) (w.after events).cache := by
        intro hnone
        refine h.still he fun p _ => ?_
        by_cases hp : l.scriptFile (w.after events) v = p
        · rw [← hp, hhere, hnone]
        · exact found?_ne (by rw [hpath]; exact hp ∘ Option.some.inj)
      obtain ⟨hfile, hload⟩ | ⟨_, c, hc, hcpath, _, hcache⟩ | ⟨_, hnew, s, hs, _, hcache⟩ |
        ⟨_, _, f, hunreadable, hload⟩ := houtcome
      · rw [htree] at hfile
        rw [hload]
        exact hstill (FileTree.scriptAt?_none hfile)
      · rw [hcache, ← hcpath]
        refine Recalls.perm (h.still he fun p hp => found?_ne ?_) (h.touched hc)
        rw [hpath, ← hcpath]
        rintro ⟨⟩
        exact hp (List.mem_map_of_mem hc)
      · rw [htree] at hs
        have hkept := h.cons hnew he hpath (hhere.trans hs)
        rw [hcache, List.take_of_length_le (Nat.le_trans hkept.length_le hfew)]
        exact hkept
      · rw [htree] at hunreadable
        rw [hload]
        exact hstill hunreadable.scriptAt?

/-- The cache after a history that fits into it. Only what happened since the cache was last cleared
has to fit. -/
theorem recalls_after (hstart : w.cache = []) (events : List ScriptEvent) :
    (w.recentPaths events).length ≤ cacheSize → w.Recalls events (w.after events).cache := by
  induction events using List.reverseRecOn with
  | nil =>
    intro _
    rw [after, List.foldl_nil, hstart]
    exact ⟨List.nodup_nil, by simp, by simp, fun p _ => unread_nil w p⟩
  | append_singleton events e ih =>
    intro hfew
    rw [after_concat]
    have hbefore : e ≠ .clear → w.Recalls events (w.after events).cache := by
      intro he
      refine ih (Nat.le_trans ?_ hfew)
      rw [recentPaths_concat]
      exact length_le_note _ he
    cases e with
    | clear => exact recalls_clear w events
    | load l name => exact recalls_load (hbefore ScriptEvent.noConfusion) hfew
    | _ =>
      exact (hbefore ScriptEvent.noConfusion).still ScriptEvent.noConfusion
        fun p _ => found?_ne (Option.some_ne_none p ∘ Eq.symm)

end World

namespace Engine.Loader

open World

theorem pathOf_eq (l : Loader) (v : Variant) : l.pathOf v = l.root.join ⟨0, [v.scriptName]⟩ := by
  cases v <;> rfl

theorem scriptName_ne (v : Variant) : v.scriptName ≠ ".." := by
  cases v <;> decide

theorem isFile_pathOf (l : Loader) (w : World) (v : Variant) :
    w.tree.isFile (w.absolute (l.pathOf v)) = true ↔
      w.tree.isThere (w.absolute l.root) = true ∧
        w.tree.isFile (w.resolve (l.pathOf v)) = true := by
  rw [FileTree.isFile_iff_locate, FileTree.isFile_iff_locate, pathOf_eq]
  simp only [locate_child (scriptName_ne v), and_assoc, exists_and_left]

/-- The path of a script below a directory that is there can be followed. -/
theorem hasPlace_of_isThere {l : Loader} {w : World} {v : Variant}
    (h : w.tree.isThere (w.absolute l.root) = true) : l.HasPlace w v := by
  obtain ⟨n, hn⟩ := (FileTree.isThere_iff _ _).1 h
  have hroot := Path.hasNul_eq_false_iff.1 (FileTree.locate_ok hn).1
  refine Path.hasNul_eq_false_iff.2 ?_
  rw [pathOf_eq, absolute_child]
  intro part hpart
  rcases List.mem_append.1 hpart with hpart | hpart
  · exact hroot part hpart
  · obtain rfl := List.mem_singleton.1 hpart
    cases v <;> decide

/-- The scripts that are listed are those that can be loaded from a directory that is there. -/
theorem mem_available (l : Loader) (w : World) (v : Variant) (p : Path) :
    (v, some p) ∈ l.available w ↔ p = l.pathOf v ∧ w.tree.isThere (w.absolute l.root) = true ∧
      w.tree.isFile (w.resolve (l.pathOf v)) = true := by
  have hv : v ∈ (Named.members : List Variant) := by cases v <;> decide
  rw [← isFile_pathOf, available, List.mem_map]
  constructor
  · rintro ⟨u, _, heq⟩
    simp only [Prod.mk.injEq] at heq
    obtain ⟨rfl, heq⟩ := heq
    split at heq
    · rename_i hfile
      exact ⟨(Option.some.inj heq).symm, hfile⟩
    · cases heq
  · rintro ⟨rfl, hfile⟩
    exact ⟨v, hv, by rw [if_pos hfile]⟩

/-- One load, with what the cache says of the history before it. -/
theorem load_recalled {w : World} {events : List ScriptEvent} {l : Loader} {name : Value}
    {v : Variant} (h : w.Recalls events (w.after events).cache)
    (hname : resolveVariant name = .ok v) :
    let now := w.after events
    let file := now.resolve (l.pathOf v)
    (¬ l.HasPlace now v ∧ l.load now name = (.error .nulInPath, now)) ∨
    (now.tree.isFile file = false ∧
      l.load now name = (.error (.scriptMissing name.text file), now)) ∨
    (now.tree.isFile file = true ∧ ∃ s, w.FirstRead (events ++ [.load l name]) file s ∧
      (l.load now name).1 = .ok ⟨v, file, s.text, Digest.textDigest s.text, s.program⟩) ∨
    (now.tree.isFile file = true ∧ w.Unread events file ∧ ∃ f,
      now.tree.Unreadable file f ∧ l.load now name = (.error f, now)) := by
  intro now file
  obtain hnowhere | ⟨hplace, houtcome⟩ := load_outcome (l := l) (w := now) hname
  · exact .inl hnowhere
  · have hhere := found?_load (w := now) (l := l) hname hplace now.tree
    obtain ⟨hcwd, htree⟩ := after_files w events
    rw [hcwd, htree] at hhere
    obtain hmissing | ⟨hfile, c, hc, hpath, hload, _⟩ | ⟨hfile, hnew, s, hs, hload, _⟩ |
      ⟨hfile, hnew, hunreadable⟩ := houtcome
    · exact .inr (.inl hmissing)
    · obtain ⟨_, s, rfl, hfirst⟩ := h.read c hc
      obtain rfl : _ = file := hpath
      exact .inr (.inr (.inl ⟨hfile, s, hfirst.concat ScriptEvent.noConfusion, hload⟩))
    · rw [htree] at hs
      have hfirst := (h.unread file hnew).firstRead (hhere.trans hs)
      exact .inr (.inr (.inl ⟨hfile, s, hfirst, hload⟩))
    · exact .inr (.inr (.inr ⟨hfile, h.unread file hnew, hunreadable⟩))

/-- Loading an edition after any history in which at most `cacheSize` paths were loaded from since
the cache was last cleared. It fails for want of a script exactly where the path of the script, made
absolute, is no file at that moment, whatever was read before; a path with a NUL is not looked for.
A script that is loaded has the text that the first load of that path since the last clearing found
in the file of that time, which may be this load, with the digest of that text. Apart from missing,
a script can only be one that cannot be read or is no text, and only where none was read before. A
load that fails might as well not have happened. An edition is listed as installed exactly where it
would not be missing and the directory of scripts is there as it is written. -/
theorem load_history {w : World} (hstart : w.cache = []) {events : List ScriptEvent}
    (hfew : (w.recentPaths events).length ≤ cacheSize) (l : Loader) {name : Value} {v : Variant}
    (hname : resolveVariant name = .ok v) :
    let now := w.after events
    let file := now.resolve (l.pathOf v)
    let outcome := (l.load now name).1
    ((∃ f, outcome = .error f ∧ f.faultClass = .engineNotFound) ↔
      l.HasPlace now v ∧ now.tree.isFile file = false) ∧
    (∀ script, outcome = .ok script → ∃ s, w.FirstRead (events ++ [.load l name]) file s ∧
      script = ⟨v, file, s.text, Digest.textDigest s.text, s.program⟩) ∧
    (∀ f, outcome = .error f → f = .scriptMissing name.text file ∨
      (¬ l.HasPlace now v ∧ f = .nulInPath) ∨
      w.Unread events file ∧ now.tree.Unreadable file f) ∧
    (∀ f, outcome = .error f → ∀ later,
      w.after (events ++ .load l name :: later) = w.after (events ++ later)) ∧
    ∀ p, (v, some p) ∈ l.available now ↔ p = l.pathOf v ∧
      now.tree.isThere (now.absolute l.root) = true ∧
      ¬ ∃ f, outcome = .error f ∧ f.faultClass = .engineNotFound := by
  intro now file outcome
  have hmissing : (∃ f, outcome = .error f ∧ f.faultClass = .engineNotFound) ↔
      l.HasPlace now v ∧ now.tree.isFile file = false := load_missing_iff hname
  have hread : (∀ script, outcome = .ok script → ∃ s,
        w.FirstRead (events ++ [.load l name]) file s ∧
        script = ⟨v, file, s.text, Digest.textDigest s.text, s.program⟩) ∧
      ∀ f, outcome = .error f → f = .scriptMissing name.text file ∨
        (¬ l.HasPlace now v ∧ f = .nulInPath) ∨
        w.Unread events file ∧ now.tree.Unreadable file f := by
    obtain ⟨hplace, hload⟩ | ⟨_, hload⟩ | ⟨_, s, hfirst, hload⟩ |
        ⟨_, hunread, f, hunreadable, hload⟩ :=
      load_recalled (l := l) (recalls_after hstart events hfew) hname
    · rw [show outcome = .error .nulInPath from congrArg Prod.fst hload]
      exact ⟨nofun, fun f hf => .inr (.inl ⟨hplace, (Except.error.inj hf).symm⟩)⟩
    · rw [show outcome = .error (.scriptMissing name.text file) from congrArg Prod.fst hload]
      exact ⟨nofun, fun f hf => .inl (Except.error.inj hf).symm⟩
    · rw [show outcome = _ from hload]
      exact ⟨fun script hscript => ⟨s, hfirst, (Except.ok.inj hscript).symm⟩, nofun⟩
    · rw [show outcome = .error f from congrArg Prod.fst hload]
      exact ⟨nofun, fun f' hf => .inr (.inr ⟨hunread, Except.error.inj hf ▸ hunreadable⟩)⟩
  refine ⟨hmissing, hread.1, hread.2, ?_, ?_⟩
  · intro f houtcome later
    have hworld : now.perform (.load l name) = now := load_error_world hname houtcome
    rw [after, List.foldl_append, List.foldl_cons, after, List.foldl_append]
    exact congrArg (fun w => List.foldl perform w later) hworld
  · intro p
    rw [mem_available, hmissing]
    refine and_congr_right fun _ => and_congr_right fun hthere => ?_
    rw [not_and, Bool.not_eq_false]
    exact ⟨fun hfile _ => hfile, fun h => h (hasPlace_of_isThere hthere)⟩

def removedFile : Path := ⟨0, ["engines", "jshint.js"]⟩

def removedWorld : World := ⟨⟨1, ["home"]⟩, ⟨1, ["lib"]⟩, [], .empty, [], []⟩

def removedLoader : Loader := ⟨⟨0, ["engines"]⟩⟩

/-- A script is installed, loaded and removed again, with no text in its place for a while. -/
def removedHistory : List ScriptEvent :=
  [.load removedLoader (.str "jshint"), .write removedFile (.text "a\r\n"),
    .load removedLoader (.str " JSHint "), .write removedFile (.bytes [0xff]),
    .load removedLoader (.str "jshint"), .delete removedFile]

theorem load_history_removed :
    (removedWorld.recentPaths removedHistory).length = 1 ∧
    (∃ f, (removedLoader.load (removedWorld.after removedHistory) (.str "JSHINT")).1 = .error f ∧
      f.faultClass = .engineNotFound) ∧
    ∀ p, (.jshint, some p) ∉ removedLoader.available (removedWorld.after removedHistory) := by
  have hpaths : (removedWorld.recentPaths removedHistory).length = 1 := by decide +kernel
  have hname : resolveVariant (.str "JSHINT") = .ok .jshint := rfl
  have hfew : (removedWorld.recentPaths removedHistory).length ≤ cacheSize := by
    rw [hpaths]
    decide
  have hstart : removedWorld.cache = [] := rfl
  obtain ⟨hmissing, _, _, _, havailable⟩ := load_history hstart hfew removedLoader hname
  have hgone : (removedWorld.after removedHistory).tree.isFile
      ((removedWorld.after removedHistory).resolve (removedLoader.pathOf .jshint)) = false := by
    rw [(after_files _ _).2, World.resolve, (after_files _ _).1]
    decide +kernel
  have hplace : removedLoader.HasPlace (removedWorld.after removedHistory) .jshint := by
    rw [HasPlace, absolute, (after_files _ _).1]
    decide +kernel
  refine ⟨hpaths, hmissing.2 ⟨hplace, hgone⟩, fun p hp => ?_⟩
  exact ((havailable p).1 hp).2.2 (hmissing.2 ⟨hplace, hgone⟩)

/-- A directory of scripts by way of a directory that is not there. -/
def detourLoader : Loader := ⟨⟨0, ["missing", "..", "engines"]⟩⟩

def detourWorld : World :=
  ⟨⟨1, ["home"]⟩, ⟨1, ["lib"]⟩, [],
    FileTree.empty.write ⟨1, ["home", "engines", "jshint.js"]⟩ (.text "var x;"), [], []⟩

/-- A script that can be loaded is not listed as installed if its directory is named by way of one
that is not there. -/
theorem available_detour : detourWorld.cache = [] ∧
    detourLoader.available detourWorld = [(.jslint, none), (.jshint, none)] ∧
    ∃ script, (detourLoader.load detourWorld (.str "jshint")).1 = .ok script := by
  have hname : resolveVariant (.str "jshint") = .ok .jshint := rfl
  have hread : ∃ script, detourWorld.tree.scriptAt? (detourLoader.scriptFile detourWorld .jshint) =
      some script := Option.isSome_iff_exists.1 (by decide +kernel)
  refine ⟨rfl, by decide +kernel, ?_⟩
  obtain ⟨hplace, _⟩ | ⟨_, ⟨hfile, _⟩ | ⟨_, c, hc, _⟩ | ⟨_, _, s, _, hload, _⟩ |
      ⟨_, _, f, hunreadable, _⟩⟩ := load_outcome (l := detourLoader) (w := detourWorld) hname
  · exact absurd (by decide +kernel) hplace
  · exact absurd hfile (by decide +kernel)
  · cases hc
  · exact ⟨_, hload⟩
  · obtain ⟨script, hscript⟩ := hread
    rw [hunreadable.scriptAt?] at hscript
    cases hscript

end Engine.Loader

end ScriptLint
