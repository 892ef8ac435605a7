import ScriptLint.Proofs.Batches
import ScriptLint.Proofs.Stores

/-!
# ScriptLint.Proofs.Escapes

Faults that no command handles: where each of them comes from. A configuration, a script and the
files to check have such faults of their own; all others end a command in good order.

* `LoadedConfiguration.Spoils`: a file whose configuration has such a fault
* `Misloads`: a configuration that cannot be loaded
* `Misbuilds`: a checker that cannot be set up
-/

namespace ScriptLint

open Engine Cli

/-- A directory seen from the one in which a configuration file lies. -/
def seenFrom (w : World) (file dir : Path) : Path :=
  if dir.isAbsolute then dir else ((w.resolve file.parent).join dir).resolve w.cwd

namespace Configuration

/-- The directory of scripts is one beside the configuration file, and has a NUL. -/
def Unplaced (c : Configuration) : Prop :=
  ∃ dir, c.settings.engineDir = some dir ∧ dir.isAbsolute = false ∧ dir.hasNul = true

variable {c : Configuration} {w : World} {file : Path} {f : Fault}

/-- Without a NUL, the directory of scripts is seen from that of the file. -/
theorem settingsAt_placed (hfile : (w.absolute file).hasNul = false) (h : ¬ c.Unplaced) :
    c.settingsAt w.cwd (some (w.resolve file.parent)) =
      .ok { c.settings with engineDir := c.settings.engineDir.map (seenFrom w file) } := by
  have hkept : ∀ dir, c.settings.engineDir = dir →
      c.settings = { c.settings with engineDir := dir } := by
    rintro _ rfl
    rfl
  cases hdir : c.settings.engineDir with
  | none =>
    simp only [settingsAt, hdir]
    exact congrArg Except.ok (hkept none hdir)
  | some dir =>
    simp only [settingsAt, hdir, Option.map_some, seenFrom]
    cases hslashes : dir.isAbsolute with
    | true => exact congrArg Except.ok (hkept (some dir) hdir)
    | false =>
      have hnul : dir.hasNul = false := eq_false_of_ne_true fun hnul => h ⟨dir, hdir, hslashes, hnul⟩
      have hbase : (w.resolve file.parent).hasNul = false :=
        Path.hasNul_resolve (Path.hasNul_parent hfile)
      have hplace : (w.cwd.join ((w.resolve file.parent).join dir)).hasNul = false := by
        have habsolute : ((w.resolve file.parent).join dir).isAbsolute = true := by
          rw [Path.join, hslashes]
          rfl
        rw [Path.join_absolute habsolute, Path.hasNul_join, hslashes, hbase, hnul]
        rfl
      simp only [Path.follow?, hplace, Bool.false_eq_true, if_false]

theorem settingsAt_unplaced (h : c.Unplaced) (cwd base : Path) :
    c.settingsAt cwd (some base) = .error .nulInPath := by
  obtain ⟨dir, hdir, hslashes, hnul⟩ := h
  have hplace : (cwd.join (base.join dir)).hasNul = true := by
    rw [Path.hasNul_join, Path.hasNul_join, hslashes, hnul]
    simp
  simp only [settingsAt, hdir, hslashes, Bool.false_eq_true, if_false, Path.follow?, hplace, if_true]

theorem settingsAt_error (hfile : (w.absolute file).hasNul = false)
    (h : c.settingsAt w.cwd (some (w.resolve file.parent)) = .error f) :
    c.Unplaced ∧ f = .nulInPath := by
  by_cases hunplaced : c.Unplaced
  · rw [settingsAt_unplaced hunplaced] at h
    cases h
    exact ⟨hunplaced, rfl⟩
  · rw [settingsAt_placed hfile hunplaced] at h
    cases h

end Configuration

namespace LoadedConfiguration

variable {w : World} {file : Path} {f : Fault}

/-- The document of a file, or the library's table in the shared file, is a configuration. -/
def Holds (w : World) (file : Path) (c : Configuration) : Prop :=
  ∃ document payload, readDocument w file = .ok document ∧
    payload? file document = .ok (some payload) ∧ Configuration.read payload = .ok c

/-- A file has a configuration that no command handles: with an integer of too many digits, or with a
directory of scripts that has a NUL. -/
inductive Spoils (w : World) (file : Path) : Fault → Prop
  | digits {text : String} {n : Nat} (hfile : w.tree.isFile (w.absolute file) = true)
    (htext : w.readText file = .ok text)
    (hread : Toml.read text.toList = .error (.tooManyDigits n)) : Spoils w file (.tooManyDigits n)
  | directory {c : Configuration} (hfile : w.tree.isFile (w.absolute file) = true)
    (h : Holds w file c) (hunplaced : c.Unplaced) : Spoils w file .nulInPath

/-- The first file of a list with a configuration is such a file. -/
inductive Breaks : World → List Path → Fault → Prop
  | here {w : World} {file : Path} {files : List Path} {f : Fault} (h : Spoils w file f) :
    Breaks w (file :: files) f
  | later {w w' : World} {file : Path} {files : List Path} {f : Fault}
    (hnone : ofFile w file = (.ok none, w')) (h : Breaks w' files f) : Breaks w (file :: files) f

theorem Spoils.unhandled (h : Spoils w file f) : isHandled f = false := by
  cases h <;> rfl

theorem Breaks.unhandled {files : List Path} (h : Breaks w files f) : isHandled f = false := by
  induction h with
  | here h => exact h.unhandled
  | later _ _ ih => exact ih

/-- The path of a file has no NUL. -/
theorem hasNul_file (h : w.tree.isFile (w.absolute file) = true) :
    (w.absolute file).hasNul = false := by
  obtain ⟨n, hlocate, _⟩ := (FileTree.isFile_iff_locate _ _).1 h
  exact (FileTree.locate_ok hlocate).1

theorem readDocument_error (hfile : w.tree.isFile (w.absolute file) = true)
    (h : readDocument w file = .error f) : isHandled f = true ∨ Spoils w file f := by
  rw [readDocument] at h
  cases htext : w.readText file with
  | error e =>
    rw [htext] at h
    cases World.readText_error htext with
    | nowhere hnul =>
      rw [hasNul_file hfile] at hnul
      cases hnul
    | unread _ _ =>
      cases h
      exact .inl rfl
    | garbled _ _ =>
      cases h
      exact .inl rfl
  | ok text =>
    rw [htext] at h
    cases hread : Toml.read text.toList with
    | ok v =>
      simp only [hread] at h
      cases h
    | error e =>
      simp only [hread] at h
      split at h
      · cases h
      · rename_i n hn
        cases h
        cases hn
        exact .inr (.digits hfile htext hread)
      · cases h
        exact .inl rfl

theorem payload?_error {document : Value} (h : payload? file document = .error f) :
    isHandled f = true := by
  rw [payload?] at h
  split at h
  · cases h
  · split at h
    · cases h
    · cases h
    · cases h
      rfl

theorem ofPayload_error {payload : Value} {w' : World}
    (hfile : w.tree.isFile (w.absolute file) = true)
    (h : ofPayload w file payload = (.error f, w')) :
    isHandled f = true ∨
      ∃ c, Configuration.read payload = .ok c ∧ c.Unplaced ∧ f = .nulInPath := by
  rw [ofPayload] at h
  split at h
  · cases h
    exact .inl rfl
  · rename_i c hread
    dsimp only at h
    split at h
    · rename_i hat
      cases h
      obtain ⟨hunplaced, rfl⟩ := Configuration.settingsAt_error (hasNul_file hfile) hat
      exact .inr ⟨c, hread, hunplaced, rfl⟩
    · cases h

theorem ofFile_document {document : Value} (hfile : w.tree.isFile (w.absolute file) = true)
    (h : readDocument w file = .ok document) :
    ofFile w file = match payload? file document with
      | .error f => (.error f, w)
      | .ok none => (.ok none, w)
      | .ok (some payload) =>
        match ofPayload w file payload with
        | (.ok c, w) => (.ok (some c), w)
        | (.error f, w) => (.error f, w) := by
  rw [ofFile, hfile, h]
  rfl

theorem ofFile_undocumented (hfile : w.tree.isFile (w.absolute file) = true)
    (h : readDocument w file = .error f) : ofFile w file = (.error f, w) := by
  rw [ofFile, hfile, h]
  rfl

theorem ofFile_error {w' : World} (h : ofFile w file = (.error f, w')) :
    isHandled f = true ∨ Spoils w file f := by
  cases hfile : w.tree.isFile (w.absolute file) with
  | false =>
    rw [ofFile, hfile] at h
    cases h
  | true =>
    cases hdocument : readDocument w file with
    | error e =>
      rw [ofFile_undocumented hfile hdocument] at h
      cases h
      exact readDocument_error hfile hdocument
    | ok document =>
      rw [ofFile_document hfile hdocument] at h
      cases hpayload : payload? file document with
      | error e =>
        simp only [hpayload] at h
        cases h
        exact .inl (payload?_error hpayload)
      | ok payload =>
        simp only [hpayload] at h
        cases payload with
        | none => cases h
        | some payload =>
          simp only at h
          split at h
          · cases h
          · rename_i hload
            cases h
            obtain hhandled | ⟨c, hread, hunplaced, rfl⟩ := ofPayload_error hfile hload
            · exact .inl hhandled
            · exact .inr (.directory hfile ⟨document, payload, hdocument, hpayload, hread⟩ hunplaced)

theorem ofFile_spoils (h : Spoils w file f) : ∃ w', ofFile w file = (.error f, w') := by
  cases h with
  | @digits text n hfile htext hread =>
    have hdocument : readDocument w file = .error (.tooManyDigits n) := by
      rw [readDocument, htext]
      simp only [hread]
    exact ⟨w, ofFile_undocumented hfile hdocument⟩
  | directory hfile h hunplaced =>
    obtain ⟨document, payload, hdocument, hpayload, hread⟩ := h
    rw [ofFile_document hfile hdocument]
    simp only [hpayload, ofPayload, hread, World.cwd_log,
      Configuration.settingsAt_unplaced hunplaced]
    exact ⟨_, rfl⟩

theorem ofFiles_error : ∀ {files : List Path} {w w' : World},
    ofFiles w files = (.error f, w') → isHandled f = true ∨ Breaks w files f
  | [], w, w', h => by cases h
  | file :: files, w, w', h => by
    rw [ofFiles] at h
    split at h
    · rename_i hfile
      cases h
      obtain hhandled | hspoils := ofFile_error hfile
      · exact .inl hhandled
      · exact .inr (.here hspoils)
    · cases h
    · rename_i hnone
      obtain hhandled | hbreaks := ofFiles_error h
      · exact .inl hhandled
      · exact .inr (.later hnone hbreaks)

theorem ofFiles_breaks {files : List Path} (h : Breaks w files f) :
    ∃ w', ofFiles w files = (.error f, w') := by
  induction h with
  | here h =>
    obtain ⟨w', hfile⟩ := ofFile_spoils h
    rw [ofFiles, hfile]
    exact ⟨_, rfl⟩
  | later hnone _ ih =>
    rw [ofFiles, hnone]
    exact ih

theorem ofNamed_error {w' : World} (h : ofNamed w file = (.error f, w')) :
    isHandled f = true ∨ Spoils w file f := by
  rw [ofNamed] at h
  split at h
  · rename_i hfile
    cases h
    exact ofFile_error hfile
  · cases h
  · split at h <;> cases h <;> exact .inl rfl

theorem ofNamed_spoils (h : Spoils w file f) : ∃ w', ofNamed w file = (.error f, w') := by
  obtain ⟨w', hfile⟩ := ofFile_spoils h
  rw [ofNamed, hfile]
  exact ⟨w', rfl⟩

end LoadedConfiguration

open LoadedConfiguration

variable {w : World} {f : Fault}

/-- The files in which a configuration is looked for. -/
def configurationFiles (w : World) : Option Path → List Path
  | some p => if p.isAbsolute then [p] else (p.follow? w.cwd).toList
  | none =>
    match projectRoot w none with
    | .ok root => configurationNames.map root.child
    | .error _ => []

theorem projectRoot_none (w : World) : ∃ root, projectRoot w none = .ok root := by
  rw [projectRoot, startPlace]
  dsimp only
  split <;> exact ⟨_, rfl⟩

/-- What is met when a configuration is loaded that no command handles: a path to it that has a NUL,
or such a file. -/
inductive Misloads (w : World) (named : Option Path) : Fault → Prop
  | place {p : Path} (hnamed : named = some p) (hslashes : p.isAbsolute = false)
    (hnul : (w.absolute p).hasNul = true) : Misloads w named .nulInPath
  | file {f : Fault} (h : Breaks w (configurationFiles w named) f) : Misloads w named f

theorem Misloads.unhandled {named : Option Path} (h : Misloads w named f) :
    isHandled f = false := by
  cases h with
  | place _ _ _ => rfl
  | file h => exact h.unhandled

/-- A file that is named is looked for at its path, or at the place that the path leads to. -/
theorem named_cases (w : World) (p : Path) :
    (p.isAbsolute = false ∧ (w.absolute p).hasNul = true ∧
      loadConfiguration w (some p) none = (.error .nulInPath, w)) ∨
    ∃ file, configurationFiles w (some p) = [file] ∧
      loadConfiguration w (some p) none = ofNamed w file := by
  rw [configurationFiles, loadConfiguration]
  cases hslashes : p.isAbsolute with
  | true => exact .inr ⟨p, rfl, rfl⟩
  | false =>
    rw [World.follow_eq, Path.follow?, ← World.absolute]
    cases hnul : (w.absolute p).hasNul with
    | true => exact .inl ⟨rfl, rfl, rfl⟩
    | false => exact .inr ⟨w.resolve p, rfl, rfl⟩

theorem loadConfiguration_error {named : Option Path} {w' : World}
    (h : loadConfiguration w named none = (.error f, w')) :
    isHandled f = true ∨ Misloads w named f := by
  cases named with
  | some p =>
    obtain ⟨hslashes, hnul, hload⟩ | ⟨file, hfiles, hload⟩ := named_cases w p
    · rw [hload] at h
      cases h
      exact .inr (.place rfl hslashes hnul)
    · rw [hload] at h
      obtain hhandled | hspoils := ofNamed_error h
      · exact .inl hhandled
      · exact .inr (.file (hfiles ▸ .here hspoils))
  | none =>
    obtain ⟨root, hroot⟩ := projectRoot_none w
    simp only [loadConfiguration, hroot] at h
    obtain hhandled | hbreaks := ofFiles_error h
    · exact .inl hhandled
    · refine .inr (.file ?_)
      rw [configurationFiles, hroot]
      exact hbreaks

theorem loadConfiguration_misloads {named : Option Path} (h : Misloads w named f) :
    ∃ w', loadConfiguration w named none = (.error f, w') := by
  cases h with
  | @place p hnamed hslashes hnul =>
    rw [hnamed, loadConfiguration, hslashes, World.follow_eq, hnul]
    exact ⟨_, rfl⟩
  | file h =>
    cases named with
    | some p =>
      obtain ⟨hslashes, hnul, _⟩ | ⟨file, hfiles, hload⟩ := named_cases w p
      · rw [configurationFiles, hslashes, Path.follow?, ← World.absolute, hnul] at h
        cases h
      · rw [hfiles] at h
        rw [hload]
        cases h with
        | here h => exact ofNamed_spoils h
        | later _ h => cases h
    | none =>
      obtain ⟨root, hroot⟩ := projectRoot_none w
      rw [configurationFiles, hroot] at h
      simp only [loadConfiguration, hroot]
      exact ofFiles_breaks h

section Checkers

/-- The directory of scripts among the flags, if there is one, has no NUL. -/
def Cli.CheckerFlags.Placed (flags : CheckerFlags) (w : World) : Prop :=
  ∀ dir, flags.engineDir = some dir → (w.absolute dir).hasNul = false

/-- The name of the edition that a checker is set up for. -/
def editionName (loaded : LoadedConfiguration) (flags : CheckerFlags) : String :=
  flags.engine.getD loaded.settings.engine

/-- What is met when a checker is set up that no command handles: such a configuration, a directory
of scripts among the flags that has a NUL, or an option, in the configuration or among the flags,
under the name that the store refuses. -/
inductive Misbuilds (w : World) (flags : CheckerFlags) : Fault → Prop
  | configuration {f : Fault} (h : Misloads w flags.config f) : Misbuilds w flags f
  | directory {loaded : LoadedConfiguration} {w' : World} {dir : Path}
    (hload : loadConfiguration w flags.config none = (.ok loaded, w'))
    (hdir : flags.engineDir = some dir) (hnul : (w'.absolute dir).hasNul = true) :
    Misbuilds w flags .nulInPath
  | reserved {loaded : LoadedConfiguration} {w' : World} {overrides : Mapping Value}
    (hload : loadConfiguration w flags.config none = (.ok loaded, w'))
    (hplaced : flags.Placed w') (hassign : Options.readAssignments flags.options = .ok overrides)
    (hedition : (parse? Variant (editionName loaded flags)).isSome = true)
    (hreserved : (loaded.options.has Options.Store.refusedName ||
      overrides.has Options.Store.refusedName) = true) : Misbuilds w flags .reservedOverride

theorem Misbuilds.unhandled {flags : CheckerFlags} (h : Misbuilds w flags f) :
    isHandled f = false := by
  cases h with
  | configuration h => exact h.unhandled
  | directory _ _ _ => rfl
  | reserved _ _ _ _ _ => rfl

theorem readAssignment_error {token : String} (h : Options.readAssignment token = .error f) :
    isHandled f = true := by
  rw [Options.readAssignment] at h
  split at h
  · cases h
    rfl
  · split at h
    · cases h
      rfl
    · cases h

theorem readTokens_error : ∀ {tokens : List String} {done : Mapping Value},
    Options.readTokens done tokens = .error f → isHandled f = true
  | [], done, h => by cases h
  | token :: tokens, done, h => by
    rw [Options.readTokens] at h
    split at h
    · rename_i htoken
      cases h
      exact readAssignment_error htoken
    · exact readTokens_error h

theorem resolveVariant_some {name : String} {v : Variant} (h : parse? Variant name = some v) :
    resolveVariant (.str name) = .ok v := by
  simp only [resolveVariant, Value.asText?, h]

theorem resolveVariant_none {name : String} (h : parse? Variant name = none) :
    resolveVariant (.str name) = .error (.unknownVariant name) := by
  simp only [resolveVariant, Value.asText?, h]

theorem editionSettings_named (settings : Settings) (name : Option String) :
    Checker.editionSettings settings (name.map .str) =
      .ok { settings with engine := name.getD settings.engine } := by
  cases name <;> rfl

theorem create_unknown {overrides : Mapping Value} {name : Option String} {settings : Settings}
    (h : parse? Variant (name.getD settings.engine) = none) :
    Checker.create w overrides (name.map .str) settings none =
      (.error (.unknownVariant (name.getD settings.engine)), w) := by
  simp only [Checker.create, editionSettings_named, resolveVariant_none h]

theorem create_known (w : World) (overrides : Mapping Value) (settings : Settings)
    {name : Option String} {v : Variant} (h : parse? Variant (name.getD settings.engine) = some v) :
    if overrides.has Options.Store.refusedName then
      ∃ w', Checker.create w overrides (name.map .str) settings none =
        (.error .reservedOverride, w')
    else ∃ c w', Checker.create w overrides (name.map .str) settings none = (.ok c, w') := by
  simp only [Checker.create, editionSettings_named, resolveVariant_some h,
    Options.Store.create_eq]
  split
  · exact ⟨_, rfl⟩
  · exact ⟨_, _, rfl⟩

/-- Settings with the directory that the flags name. -/
def settingsWith (w : World) (flags : CheckerFlags) (settings : Settings) : Settings :=
  { settings with engineDir := (flags.engineDir.map w.resolve).or settings.engineDir }

theorem flaggedSettings_placed {flags : CheckerFlags} (settings : Settings) (h : flags.Placed w) :
    flaggedSettings w flags settings = .ok (settingsWith w flags settings) := by
  rw [flaggedSettings, settingsWith]
  cases hdir : flags.engineDir with
  | none => rfl
  | some dir =>
    simp only [World.follow_eq, h dir hdir, Bool.false_eq_true, if_false]
    rfl

theorem flaggedSettings_lost {flags : CheckerFlags} {dir : Path} (settings : Settings)
    (hdir : flags.engineDir = some dir) (hnul : (w.absolute dir).hasNul = true) :
    flaggedSettings w flags settings = .error .nulInPath := by
  simp only [flaggedSettings, hdir, World.follow_eq, hnul, if_true]
  rfl

theorem directory_cases (w : World) (flags : CheckerFlags) :
    (∃ dir, flags.engineDir = some dir ∧ (w.absolute dir).hasNul = true) ∨
      flags.Placed w := by
  by_cases hplaced : flags.Placed w
  · exact .inr hplaced
  · refine .inl ?_
    simpa [CheckerFlags.Placed] using hplaced

section Built

variable {flags : CheckerFlags} {loaded : LoadedConfiguration} {w' w₂ : World}
  {overrides : Mapping Value}
  (hload : loadConfiguration w flags.config none = (.ok loaded, w'))
  (hplaced : flags.Placed w')
  (hassign : Options.readAssignments flags.options = .ok overrides)

include hload hplaced hassign

theorem buildChecker_create_error {e : Fault}
    (hcreate : Checker.create w' (loaded.options.layer overrides) (flags.engine.map .str)
      (settingsWith w' flags loaded.settings) none = (.error e, w₂)) :
    buildChecker w flags = (.error e, w₂) := by
  simp only [buildChecker, hload, flaggedSettings_placed loaded.settings hplaced, hassign, hcreate]

theorem buildChecker_create_ok {c : Checker}
    (hcreate : Checker.create w' (loaded.options.layer overrides) (flags.engine.map .str)
      (settingsWith w' flags loaded.settings) none = (.ok c, w₂)) :
    ∃ journal, buildChecker w flags = (.ok c, w₂.log journal) := by
  simp only [buildChecker, hload, flaggedSettings_placed loaded.settings hplaced, hassign, hcreate]
  exact ⟨_, rfl⟩

/-- An edition that is not known is refused, and one that is known makes a checker unless an option
has the name that the store refuses. -/
theorem buildChecker_cases :
    (parse? Variant (editionName loaded flags) = none ∧
      ∃ w₂, buildChecker w flags = (.error (.unknownVariant (editionName loaded flags)), w₂)) ∨
    (parse? Variant (editionName loaded flags)).isSome = true ∧
      if loaded.options.has Options.Store.refusedName ||
        overrides.has Options.Store.refusedName then
        ∃ w₂, buildChecker w flags = (.error .reservedOverride, w₂)
      else ∃ c w₂, buildChecker w flags = (.ok c, w₂) := by
  cases hedition : parse? Variant (editionName loaded flags) with
  | none =>
    exact .inl ⟨rfl, _, buildChecker_create_error hload hplaced hassign (create_unknown hedition)⟩
  | some v =>
    refine .inr ⟨rfl, ?_⟩
    have hcreate := create_known w' (loaded.options.layer overrides)
      (settingsWith w' flags loaded.settings) hedition
    rw [Mapping.has_layer] at hcreate
    split at hcreate
    · rename_i hreserved
      obtain ⟨w₂, hcreate⟩ := hcreate
      rw [if_pos hreserved]
      exact ⟨w₂, buildChecker_create_error hload hplaced hassign hcreate⟩
    · rename_i hfree
      obtain ⟨c, w₂, hcreate⟩ := hcreate
      obtain ⟨journal, hbuild⟩ := buildChecker_create_ok hload hplaced hassign hcreate
      rw [if_neg hfree]
      exact ⟨c, _, hbuild⟩

end Built

theorem buildChecker_error {flags : CheckerFlags} {w' : World}
    (h : buildChecker w flags = (.error f, w')) : isHandled f = true ∨ Misbuilds w flags f := by
  cases hload : loadConfiguration w flags.config none with
  | mk r w₁ =>
    cases r with
    | error e =>
      simp only [buildChecker, hload] at h
      cases h
      obtain hhandled | hmisloads := loadConfiguration_error hload
      · exact .inl hhandled
      · exact .inr (.configuration hmisloads)
    | ok loaded =>
      obtain ⟨dir, hdir, hnul⟩ | hplaced := directory_cases w₁ flags
      · simp only [buildChecker, hload, flaggedSettings_lost loaded.settings hdir hnul] at h
        cases h
        exact .inr (.directory hload hdir hnul)
      · cases hassign : Options.readAssignments flags.options with
        | error e =>
          simp only [buildChecker, hload, flaggedSettings_placed loaded.settings hplaced,
            hassign] at h
          cases h
          exact .inl (readTokens_error hassign)
        | ok overrides =>
          obtain ⟨_, w₂, hbuild⟩ | ⟨hedition, hbuild⟩ :=
            buildChecker_cases hload hplaced hassign
          · rw [hbuild] at h
            cases h
            exact .inl rfl
          · split at hbuild
            · rename_i hreserved
              obtain ⟨w₂, hbuild⟩ := hbuild
              rw [hbuild] at h
              cases h
              exact .inr (.reserved hload hplaced hassign hedition hreserved)
            · obtain ⟨c, w₂, hbuild⟩ := hbuild
              rw [hbuild] at h
              cases h

theorem buildChecker_misbuilds {flags : CheckerFlags} (h : Misbuilds w flags f) :
    ∃ w', buildChecker w flags = (.error f, w') := by
  cases h with
  | configuration h =>
    obtain ⟨w', hload⟩ := loadConfiguration_misloads h
    simp only [buildChecker, hload]
    exact ⟨_, rfl⟩
  | @directory loaded w' dir hload hdir hnul =>
    simp only [buildChecker, hload, flaggedSettings_lost loaded.settings hdir hnul]
    exact ⟨_, rfl⟩
  | reserved hload hplaced hassign hedition hreserved =>
    obtain ⟨hunknown, _⟩ | ⟨_, hbuild⟩ := buildChecker_cases hload hplaced hassign
    · rw [hunknown] at hedition
      cases hedition
    · rwa [if_pos hreserved] at hbuild

end Checkers

end ScriptLint
