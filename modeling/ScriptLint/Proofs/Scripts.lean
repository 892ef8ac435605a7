import ScriptLint.Engine.Loader
import ScriptLint.Proofs.Places

/-!
# ScriptLint.Proofs.Scripts

Loading the script of an edition: from its file, or from what was kept of it.

* `World.SameFiles`: worlds with the same files
* `Loader.Loads`: the script that is loaded
* `Loader.Fails`: why there is none
* `Loader.load_cases`: there is a script, or there is a reason why not
-/

namespace ScriptLint

/-- The files of a world, seen from the same directory. -/
def World.SameFiles (w w' : World) : Prop := w'.cwd = w.cwd ∧ w'.tree = w.tree

namespace World

variable {w w' : World}

theorem SameFiles.refl (w : World) : w.SameFiles w := ⟨rfl, rfl⟩

theorem SameFiles.log (h : w.SameFiles w') (records : Log.Journal) :
    w.SameFiles (w'.log records) := h

theorem SameFiles.readText (h : w.SameFiles w') (p : Path) : w'.readText p = w.readText p := by
  rw [World.readText, World.readText, readScriptText, readScriptText, absolute, absolute, h.1, h.2]

end World

namespace Engine.Loader

/-- Where the script of an edition is looked for. -/
def scriptFile (l : Loader) (w : World) (v : Variant) : Path := w.resolve (l.pathOf v)

/-- The path of the script of an edition can be followed. -/
def HasPlace (l : Loader) (w : World) (v : Variant) : Prop :=
  (w.absolute (l.pathOf v)).hasNul = false

instance (l : Loader) (w : World) (v : Variant) : Decidable (l.HasPlace w v) :=
  inferInstanceAs (Decidable (_ = _))

/-- What is kept of the script of an edition. -/
def kept? (l : Loader) (w : World) (v : Variant) : Option CachedScript :=
  w.cache.find? fun k => k.path == l.scriptFile w v

/-- The script of an edition, whose file is there: as it was kept, else as it is read now. -/
inductive Loads (l : Loader) (w : World) (v : Variant) : Script → Prop
  | kept {k : CachedScript} (hplace : l.HasPlace w v)
    (hfile : w.tree.isFile (l.scriptFile w v) = true) (hkept : l.kept? w v = some k) :
    l.Loads w v ⟨v, l.scriptFile w v, k.script.text, k.digest, k.script.program⟩
  | read {content : Content} {t : ScriptText} (hplace : l.HasPlace w v)
    (hkept : l.kept? w v = none) (hread : w.tree.read (l.scriptFile w v) = .ok content)
    (htext : ScriptText.ofContent content = .ok t) :
    l.Loads w v ⟨v, l.scriptFile w v, t.text, Digest.textDigest t.text, t.program⟩

/-- Why there is no script of an edition. -/
inductive Fails (l : Loader) (w : World) (v : Variant) : Fault → Prop
  | nowhere (hplace : ¬ l.HasPlace w v) : l.Fails w v .nulInPath
  | missing (hplace : l.HasPlace w v) (hfile : w.tree.isFile (l.scriptFile w v) = false) :
    l.Fails w v (.scriptMissing v.text (l.scriptFile w v))
  | locked (hplace : l.HasPlace w v) (hkept : l.kept? w v = none)
    (hlocked : w.tree.locate (l.scriptFile w v) = .ok .locked) :
    l.Fails w v (.file .denied (l.scriptFile w v))
  | garbled {content : Content} {flaw : Text.Utf8.Flaw} (hplace : l.HasPlace w v)
    (hkept : l.kept? w v = none) (hread : w.tree.read (l.scriptFile w v) = .ok content)
    (htext : ScriptText.ofContent content = .error flaw) :
    l.Fails w v (.undecodable flaw)

variable {l : Loader} {w : World} {v : Variant}

theorem follow_pathOf (h : l.HasPlace w v) : w.follow (l.pathOf v) = .ok (l.scriptFile w v) := by
  rw [World.follow_eq, if_neg (ne_true_of_eq_false h), scriptFile]

theorem hasNul_scriptFile (h : l.HasPlace w v) : (w.absolute (l.scriptFile w v)).hasNul = false :=
  Path.hasNul_resolve h

section Kept

variable {p : Path}

theorem cachedRead_kept {k : CachedScript}
    (h : (w.cache.find? fun k => k.path == p) = some k) : ∃ w', cachedRead w p = (.ok k, w') := by
  rw [cachedRead, h]
  exact ⟨_, rfl⟩

variable (hnul : (w.absolute p).hasNul = false)
  (hkept : (w.cache.find? fun k => k.path == p) = none)

include hnul hkept

theorem cachedRead_read {content : Content} {t : ScriptText}
    (hread : w.tree.read (w.absolute p) = .ok content)
    (htext : ScriptText.ofContent content = .ok t) :
    ∃ w', cachedRead w p = (.ok ⟨p, t, Digest.textDigest t.text⟩, w') := by
  rw [cachedRead, hkept, World.readScriptText, hnul, hread]
  simp only [htext]
  exact ⟨_, rfl⟩

theorem cachedRead_garbled {content : Content} {flaw : Text.Utf8.Flaw}
    (hread : w.tree.read (w.absolute p) = .ok content)
    (htext : ScriptText.ofContent content = .error flaw) :
    cachedRead w p = (.error (.undecodable flaw), w) := by
  rw [cachedRead, hkept, World.readScriptText, hnul, hread]
  simp only [htext, Bool.false_eq_true, if_false]

theorem cachedRead_locked (hlocked : w.tree.locate (w.absolute p) = .ok .locked) :
    cachedRead w p = (.error (.file .denied p), w) := by
  rw [cachedRead, hkept, World.readScriptText, hnul, FileTree.read_locked hlocked]
  rfl

end Kept

theorem load_cached {k : CachedScript} {w' : World} (hplace : l.HasPlace w v)
    (hfile : w.tree.isFile (l.scriptFile w v) = true)
    (hcached : cachedRead w (l.scriptFile w v) = (.ok k, w')) :
    ∃ w₂, l.load w (.choice (.variant v)) =
      (.ok ⟨v, l.scriptFile w v, k.script.text, k.digest, k.script.program⟩, w₂) := by
  simp only [load, resolveVariant, follow_pathOf hplace, hfile, if_true, hcached]
  exact ⟨_, rfl⟩

theorem load_uncached {f : Fault} (hplace : l.HasPlace w v)
    (hfile : w.tree.isFile (l.scriptFile w v) = true)
    (hcached : cachedRead w (l.scriptFile w v) = (.error f, w)) :
    l.load w (.choice (.variant v)) = (.error f, w) := by
  simp only [load, resolveVariant, follow_pathOf hplace, hfile, if_true, hcached]

theorem load_loads {s : Script} (h : l.Loads w v s) :
    ∃ w', l.load w (.choice (.variant v)) = (.ok s, w') := by
  cases h with
  | kept hplace hfile hkept =>
    obtain ⟨w₁, hcached⟩ := cachedRead_kept hkept
    exact load_cached hplace hfile hcached
  | read hplace hkept hread htext =>
    obtain ⟨w₁, hcached⟩ := cachedRead_read (hasNul_scriptFile hplace) hkept hread htext
    exact load_cached hplace ((FileTree.isFile_iff _ _).2 (.inl ⟨_, hread⟩)) hcached

theorem load_missing (hplace : l.HasPlace w v) (h : w.tree.isFile (l.scriptFile w v) = false) :
    l.load w (.choice (.variant v)) = (.error (.scriptMissing v.text (l.scriptFile w v)), w) := by
  simp only [load, resolveVariant, follow_pathOf hplace, h, Bool.false_eq_true, if_false]
  rfl

theorem load_nowhere (h : ¬ l.HasPlace w v) :
    l.load w (.choice (.variant v)) = (.error .nulInPath, w) := by
  simp only [load, resolveVariant, World.follow_eq, if_pos (eq_true_of_ne_false h)]

theorem load_fails {f : Fault} (h : l.Fails w v f) :
    l.load w (.choice (.variant v)) = (.error f, w) := by
  cases h with
  | nowhere hplace => exact load_nowhere hplace
  | missing hplace hfile => exact load_missing hplace hfile
  | locked hplace hkept hlocked =>
    exact load_uncached hplace ((FileTree.isFile_iff _ _).2 (.inr hlocked))
      (cachedRead_locked (hasNul_scriptFile hplace) hkept hlocked)
  | garbled hplace hkept hread htext =>
    exact load_uncached hplace ((FileTree.isFile_iff _ _).2 (.inl ⟨_, hread⟩))
      (cachedRead_garbled (hasNul_scriptFile hplace) hkept hread htext)

/-- There is a script to load, or there is a reason why not. -/
theorem load_cases (l : Loader) (w : World) (v : Variant) :
    (∃ s, l.Loads w v s) ∨ ∃ f, l.Fails w v f := by
  by_cases hplace : l.HasPlace w v
  · cases hfile : w.tree.isFile (l.scriptFile w v) with
    | false => exact .inr ⟨_, .missing hplace hfile⟩
    | true =>
      cases hkept : l.kept? w v with
      | some k => exact .inl ⟨_, .kept hplace hfile hkept⟩
      | none =>
        obtain ⟨content, hread⟩ | hlocked := (FileTree.isFile_iff _ _).1 hfile
        · cases htext : ScriptText.ofContent content with
          | ok t => exact .inl ⟨_, .read hplace hkept hread htext⟩
          | error flaw => exact .inr ⟨_, .garbled hplace hkept hread htext⟩
        · exact .inr ⟨_, .locked hplace hkept hlocked⟩
  · exact .inr ⟨_, .nowhere hplace⟩

theorem sameFiles_cachedRead (w : World) (p : Path) : w.SameFiles (cachedRead w p).2 := by
  rw [cachedRead]
  split
  · exact .refl w
  · split
    · exact .refl w
    · exact .refl w

/-- Loading leaves files alone. -/
theorem sameFiles_load (l : Loader) (w : World) (name : Value) :
    w.SameFiles (l.load w name).2 := by
  rw [load]
  split
  · exact .refl w
  · split
    · exact .refl w
    · rename_i p _
      have hcached := sameFiles_cachedRead w p
      split
      · split
        · rename_i h
          rw [h] at hcached
          exact hcached
        · rename_i h
          rw [h] at hcached
          exact hcached.log _
      · exact .refl w

end Engine.Loader

end ScriptLint
