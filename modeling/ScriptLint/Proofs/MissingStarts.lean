import ScriptLint.Proofs.Discovered

/-!
# ScriptLint.Proofs.MissingStarts

Starts that are not there. The directories above a start are searched before anyone asks whether the
start exists, so a missing start is refused only where that search finds nothing.

* `World.Astray`: a place with nothing at it and no configuration above it
* `World.NoStart`: starts that name such a place, or none
* `projectRoot_error_iff`: such starts are refused, and no others
* `projectRoot_start`: what comes of every start
-/

namespace ScriptLint

open FileTree LoadedConfiguration

variable {w : World} {place : Path}

/-- What holds a file is there. -/
theorem FileTree.isThere_holder {t : FileTree} {p : Path} (hplain : ".." ∉ p.parts)
    (h : t.isFile p = true) : t.isThere p.parent = true := by
  obtain ⟨slashes, parts⟩ := p
  obtain ⟨n, hlocate, hfile⟩ := (isFile_iff_locate t _).1 h
  obtain ⟨hnul, place, hfollow, hnode⟩ := locate_ok hlocate
  obtain rfl | ⟨front, last, rfl⟩ := List.eq_nil_or_concat parts
  · cases hfollow
    cases hnode
    exact absurd rfl hfile
  · rw [List.concat_eq_append] at hplain hfollow hnul ⊢
    rw [List.mem_append, List.mem_singleton, not_or] at hplain
    rw [follow_append] at hfollow
    cases hfront : follow t [] front with
    | error e =>
      rw [hfront] at hfollow
      cases hfollow
    | ok holder =>
      rw [hfront] at hfollow
      obtain ⟨hdirectory, _, _⟩ := (follow_plain (Ne.symm hplain.2)).1 hfollow
      have hparent : follow t [] (⟨slashes, front ++ [last]⟩ : Path).parent.parts = .ok holder := by
        rw [Path.parent, List.dropLast_concat, hfront]
      have hholder : (⟨slashes, front ++ [last]⟩ : Path).parent.hasNul = false := by
        rw [Path.hasNul_eq_false_iff] at hnul ⊢
        exact fun part hpart => hnul part (List.dropLast_subset _ hpart)
      exact (isThere_iff _ _).2 ⟨_, (locate_of_follow hholder hparent).2 hdirectory⟩

theorem find?_hasMarker_eq_none_iff :
    place.ancestors.find? (hasMarker w) = none ↔
      ∀ dir : Path, dir.Above place → ¬ w.Marked dir := by
  rw [List.find?_eq_none]
  refine forall_congr' fun dir => ?_
  rw [Path.mem_ancestors, hasMarker_iff]

/-- Nothing is at a place, and no directory above it has anything under one of the names of
configuration files. -/
structure World.Astray (w : World) (place : Path) : Prop where
  absent : w.tree.isThere place = false
  unmarked : ∀ dir : Path, dir.Above place → ¬ w.Marked dir

/-- A start that names no place, or a place that is astray. -/
inductive World.NoStart (w : World) (s : Path) : Fault → Prop
  | nowhere (hnul : (w.absolute s).hasNul = true) : w.NoStart s .nulInPath
  | astray (hnul : (w.absolute s).hasNul = false) (h : w.Astray (w.resolve s)) :
    w.NoStart s (.startMissing s)

theorem startPlace_nowhere {s : Path} (hnul : (w.absolute s).hasNul = true) :
    startPlace w (some s) = .error .nulInPath :=
  (World.follow_eq w s).trans (if_pos hnul)

section Placed

variable {s : Path} (hnul : (w.absolute s).hasNul = false)

include hnul

theorem startPlace_place : startPlace w (some s) = .ok (w.resolve s) :=
  (World.follow_eq w s).trans (if_neg (ne_true_of_eq_false hnul))

/-- A start that names a place is refused exactly if the place is astray. -/
theorem projectRoot_placed_iff (f : Fault) :
    projectRoot w (some s) = .error f ↔ f = .startMissing s ∧ w.Astray (w.resolve s) := by
  have hstart := startPlace_place hnul
  cases hfile : w.tree.isFile (w.resolve s) with
  | true =>
    -- a file is searched from the directory that holds it, and both are there
    have hthere : w.tree.isThere (w.resolve s) = true := by
      obtain ⟨n, hlocate, _⟩ := (isFile_iff_locate _ _).1 hfile
      exact (isThere_iff _ _).2 ⟨n, hlocate⟩
    have hholder := isThere_holder (Path.plain_collapse _ _ List.not_mem_nil) hfile
    constructor
    · intro h
      simp only [projectRoot, hstart, hfile, if_true] at h
      split at h
      · cases h
      · rw [if_pos hholder] at h
        cases h
    · rintro ⟨_, hastray⟩
      rw [hastray.absent] at hthere
      cases hthere
  | false =>
    simp only [projectRoot, hstart, hfile, Bool.false_eq_true, if_false]
    cases hfind : (w.resolve s).ancestors.find? (hasMarker w) with
    | some dir =>
      constructor
      · intro h
        cases h
      · rintro ⟨_, hastray⟩
        rw [find?_hasMarker_eq_none_iff.2 hastray.unmarked] at hfind
        cases hfind
    | none =>
      have hunmarked := find?_hasMarker_eq_none_iff.1 hfind
      cases hthere : w.tree.isThere (w.resolve s) with
      | true =>
        constructor
        · intro h
          cases h
        · rintro ⟨_, hastray⟩
          rw [hastray.absent] at hthere
          cases hthere
      | false =>
        constructor
        · intro h
          cases h
          exact ⟨rfl, hthere, hunmarked⟩
        · rintro ⟨rfl, _⟩
          rfl

/-- From a place that is no file, the nearest marked directory above it is found, whether or not
anything is at the place. -/
theorem projectRoot_marked {dir : Path} (hfile : w.tree.isFile (w.resolve s) = false)
    (habove : dir.Above (w.resolve s)) (hmarked : w.Marked dir) :
    ∃ root, projectRoot w (some s) = .ok root ∧ w.IsRoot (w.resolve s) root := by
  cases hfind : (w.resolve s).ancestors.find? (hasMarker w) with
  | none => exact absurd hmarked (find?_hasMarker_eq_none_iff.1 hfind dir habove)
  | some root =>
    refine ⟨root, ?_, (isRoot_iff _ _ _).2 (by rw [hfind]; rfl)⟩
    simp only [projectRoot, startPlace_place hnul, hfile, Bool.false_eq_true, if_false, hfind]

end Placed

/-- Starts are refused for want of a place, or because nothing is there, and for nothing else. -/
theorem projectRoot_error_iff (w : World) (s : Path) (f : Fault) :
    projectRoot w (some s) = .error f ↔ w.NoStart s f := by
  cases hnul : (w.absolute s).hasNul with
  | true =>
    have hroot : projectRoot w (some s) = .error .nulInPath := by
      rw [projectRoot, startPlace_nowhere hnul]
    rw [hroot]
    constructor
    · intro h
      cases h
      exact .nowhere hnul
    · intro h
      cases h with
      | nowhere _ => rfl
      | astray hplace _ =>
        rw [hnul] at hplace
        cases hplace
  | false =>
    rw [projectRoot_placed_iff hnul]
    constructor
    · rintro ⟨rfl, hastray⟩
      exact .astray hnul hastray
    · intro h
      cases h with
      | nowhere hnone =>
        rw [hnul] at hnone
        cases hnone
      | astray _ hastray => exact ⟨rfl, hastray⟩

/-- Reading the files of a directory never says that a file is missing: such files are skipped. -/
theorem ofFiles_not_missing (files : List Path) (f : Fault) (hf : f.faultClass = .fileMissing) :
    (ofFiles w files).1 ≠ .error f := by
  intro h
  obtain ⟨_, hstandard⟩ | ⟨before, file, later, _, _, _, hdecides⟩ := ofFiles_decided w files
  · rw [hstandard] at h
    cases h
  · obtain hclass | hclass | ⟨_, hclass⟩ := hdecides.faultClass f h
    all_goals
      rw [hclass] at hf
      cases hf

/-- Exactly those starts are refused that name a place with nothing at it and with no configuration
above it, by the root of the project as by its configuration, and as a missing file. So what exists
is never refused. But from a missing place the nearest directory above it that has a configuration
is taken for the root, as it is from a place that is there. A start with a NUL names no place, and is
refused as that. -/
theorem projectRoot_start (w : World) (s : Path) :
    (∀ f, projectRoot w (some s) = .error f ↔ w.NoStart s f) ∧
    (∀ f, f.faultClass = .fileMissing →
      ((loadConfiguration w none (some s)).1 = .error f ↔ w.NoStart s f)) ∧
    (w.tree.isThere (w.absolute s) = true → ∃ root, projectRoot w (some s) = .ok root) ∧
    ((w.absolute s).hasNul = false → w.tree.isThere (w.resolve s) = false →
      ∀ dir : Path, dir.Above (w.resolve s) → w.Marked dir →
        ∃ root, projectRoot w (some s) = .ok root ∧ w.IsRoot (w.resolve s) root) := by
  refine ⟨projectRoot_error_iff w s, ?_, ?_, ?_⟩
  · intro f hf
    rw [← projectRoot_error_iff]
    cases hroot : projectRoot w (some s) with
    | error e => simp only [loadConfiguration, hroot, Except.error.injEq]
    | ok root =>
      simp only [loadConfiguration, hroot]
      constructor
      · exact fun h => absurd h (ofFiles_not_missing _ f hf)
      · intro h
        cases h
  · intro hthere
    obtain ⟨n, hn⟩ := (isThere_iff _ _).1 hthere
    have hresolved := (isThere_iff _ _).2 ⟨n, World.locate_resolve hn⟩
    cases hroot : projectRoot w (some s) with
    | ok root => exact ⟨root, rfl⟩
    | error f =>
      cases (projectRoot_error_iff w s f).1 hroot with
      | nowhere hnul =>
        rw [(locate_ok hn).1] at hnul
        cases hnul
      | astray _ hastray =>
        rw [hastray.absent] at hresolved
        cases hresolved
  · intro hnul hmissing dir habove hmarked
    refine projectRoot_marked hnul ?_ habove hmarked
    cases hfile : w.tree.isFile (w.resolve s) with
    | false => rfl
    | true =>
      obtain ⟨n, hlocate, _⟩ := (isFile_iff_locate _ _).1 hfile
      rw [(isThere_iff _ _).2 ⟨n, hlocate⟩] at hmissing
      cases hmissing

/-- A directory with an empty configuration. -/
def emptyConfigurationWorld : World :=
  ⟨⟨1, ["home"]⟩, ⟨1, ["lib"]⟩, [],
    ⟨[(["home"], .directory), (["home", "jslintr.toml"], .file (.bytes []))]⟩, [], []⟩

/-- A start that is missing is not refused: what is loaded is the configuration of the directory
above. -/
theorem projectRoot_missing_start :
    emptyConfigurationWorld.tree.isThere (emptyConfigurationWorld.absolute ⟨0, ["missing"]⟩) =
      false ∧
    projectRoot emptyConfigurationWorld (some ⟨0, ["missing"]⟩) = .ok ⟨1, ["home"]⟩ ∧
    ∃ loaded, (loadConfiguration emptyConfigurationWorld none (some ⟨0, ["missing"]⟩)).1 =
      .ok loaded ∧ loaded.path = some ⟨1, ["home", "jslintr.toml"]⟩ := by
  exact ⟨rfl, rfl, _, rfl, rfl⟩

end ScriptLint
