import ScriptLint.Proofs.Escapes
import ScriptLint.Proofs.OrderedStores
import ScriptLint.Proofs.Schemas

/-!
# ScriptLint.Proofs.Precedence

What goes before what when a checker is set up from flags, a configuration file, a variable and what
holds by itself.

* `LoadedConfiguration.Origin`: the file that a configuration comes from
* `given`: the options among the flags
* `loadConfiguration_origin`: what is loaded is what the file says
* `buildChecker_precedence`: options, edition and directory of scripts of the checker
-/

namespace ScriptLint

open Engine Cli Options

namespace LoadedConfiguration

/-- What is loaded where a file has a configuration. -/
def ofOrigin (w : World) (file : Path) (c : Configuration) : LoadedConfiguration :=
  ⟨{ c.settings with engineDir := c.settings.engineDir.map (seenFrom w file) }, c.options,
    some (w.resolve file)⟩

/-- Where a configuration comes from that is looked for in files: the first of them that has one, or
none of them. -/
inductive Origin (w : World) :
    List Path → Option (Path × Configuration) → LoadedConfiguration → Prop
  | none : Origin w [] none .standard
  | here {file : Path} {files : List Path} {c : Configuration} (h : Holds w file c) :
    Origin w (file :: files) (some (file, c)) (ofOrigin w file c)
  | later {file : Path} {files : List Path} {origin : Option (Path × Configuration)}
    {loaded : LoadedConfiguration} (hnone : (ofFile w file).1 = .ok none)
    (h : Origin w files origin loaded) : Origin w (file :: files) origin loaded

end LoadedConfiguration

/-- What a configuration file says, if there is one. -/
def fileOptions : Option (Path × Configuration) → Mapping Value
  | some (_, c) => c.options
  | none => []

def fileEngine? (origin : Option (Path × Configuration)) : Option String :=
  origin.map fun o => o.2.settings.engine

def fileRoot? (w : World) (origin : Option (Path × Configuration)) : Option Path :=
  origin.bind fun o => o.2.settings.engineDir.map (seenFrom w o.1)

/-- The directory of scripts where neither flags nor configuration name one. -/
def standardRoot (w : World) : Path :=
  ((w.setting? directoryVariable).map Path.parse).getD w.bundle

/-- Names and values of the tokens that assign an option, in order. -/
def given (tokens : List String) : List (String × Value) :=
  tokens.filterMap fun token => (readAssignment token).toOption

section Configurations

open LoadedConfiguration

variable {w w' : World} {file : Path} {loaded : LoadedConfiguration}

theorem World.log_nil (w : World) : w.log [] = w := by
  rw [log, List.append_nil]

/-- The engine of a configuration is that of an edition, and none of its options is given twice. -/
theorem Configuration.read_ok {payload : Value} {c : Configuration}
    (h : Configuration.read payload = .ok c) :
    (∃ v : Variant, c.settings.engine = v.text) ∧ (Mapping.keys c.options).Nodup := by
  unfold Configuration.read at h
  split at h
  · obtain ⟨hfields, hoptions, _⟩ := Configuration.readEntries_eq_ok_iff.1 h
    obtain ⟨_, edition, _, _, hname⟩ :=
      Settings.field_engine.1 (Settings.readFields_eq_ok_iff.1 hfields).1
    refine ⟨⟨edition, hname⟩, ?_⟩
    generalize c.options = options at hoptions ⊢
    rw [Configuration.readOptions] at hoptions
    split at hoptions
    · cases hoptions
      exact List.nodup_nil
    · split at hoptions
      · cases hoptions
        exact Mapping.nodup_ofPairs _
      · cases hoptions
    · cases hoptions
  · cases h

theorem ofPayload_ok {payload : Value} (hfile : (w.absolute file).hasNul = false)
    (h : ofPayload w file payload = (.ok loaded, w')) :
    ∃ c journal, Configuration.read payload = .ok c ∧ w' = w.log journal ∧
      loaded = ofOrigin w file c := by
  rw [ofPayload] at h
  split at h
  · cases h
  · rename_i c hread
    have hplaced : ¬ c.Unplaced := by
      intro hunplaced
      simp only [World.cwd_log, Configuration.settingsAt_unplaced hunplaced] at h
      cases h
    simp only [World.cwd_log, World.resolve_log,
      Configuration.settingsAt_placed hfile hplaced] at h
    cases h
    exact ⟨c, _, hread, rfl, rfl⟩

/-- A file either has no configuration, and nothing happens, or it has the one that is loaded. -/
theorem ofFile_ok {found : Option LoadedConfiguration} (h : ofFile w file = (.ok found, w')) :
    (found = none ∧ w' = w) ∨ ∃ c journal, Holds w file c ∧ w' = w.log journal ∧
      found = some (ofOrigin w file c) := by
  cases hfile : w.tree.isFile (w.absolute file) with
  | false =>
    rw [ofFile, hfile] at h
    cases h
    exact .inl ⟨rfl, rfl⟩
  | true =>
    cases hdocument : readDocument w file with
    | error f =>
      rw [ofFile_undocumented hfile hdocument] at h
      cases h
    | ok document =>
      rw [ofFile_document hfile hdocument] at h
      split at h
      · cases h
      · cases h
        exact .inl ⟨rfl, rfl⟩
      · rename_i payload hpayload
        split at h
        · rename_i hload
          cases h
          obtain ⟨c, journal, hread, hlog, rfl⟩ := ofPayload_ok (hasNul_file hfile) hload
          exact .inr ⟨c, journal, ⟨document, payload, hdocument, hpayload, hread⟩, hlog, rfl⟩
        · cases h

theorem ofFiles_ok {files : List Path} (h : ofFiles w files = (.ok loaded, w')) :
    ∃ origin journal, Origin w files origin loaded ∧ w' = w.log journal := by
  induction files with
  | nil =>
    cases h
    exact ⟨none, [], .none, w.log_nil.symm⟩
  | cons file files ih =>
    rw [ofFiles] at h
    split at h
    · cases h
    · rename_i hfile
      cases h
      obtain ⟨hnone, _⟩ | ⟨c, journal, hholds, hlog, hfound⟩ := ofFile_ok hfile
      · cases hnone
      · cases hfound
        exact ⟨_, journal, .here hholds, hlog⟩
    · rename_i hfile
      obtain ⟨_, hw⟩ | ⟨c, journal, _, _, hfound⟩ := ofFile_ok hfile
      · rw [hw] at h
        obtain ⟨origin, journal, horigin, hlog⟩ := ih h
        exact ⟨origin, journal, .later (congrArg Prod.fst hfile) horigin, hlog⟩
      · cases hfound

theorem ofNamed_ok (h : ofNamed w file = (.ok loaded, w')) :
    ∃ origin journal, Origin w [file] origin loaded ∧ w' = w.log journal := by
  rw [ofNamed] at h
  split at h
  · cases h
  · rename_i hfile
    cases h
    obtain ⟨hnone, _⟩ | ⟨c, journal, hholds, hlog, hfound⟩ := ofFile_ok hfile
    · cases hnone
    · cases hfound
      exact ⟨_, journal, .here hholds, hlog⟩
  · split at h <;> cases h

/-- What is loaded is what the first file says that has a configuration, or what holds without
any. -/
theorem loadConfiguration_origin {named : Option Path}
    (h : loadConfiguration w named none = (.ok loaded, w')) :
    ∃ origin journal, Origin w (configurationFiles w named) origin loaded ∧
      w' = w.log journal := by
  cases named with
  | some p =>
    obtain ⟨_, _, hload⟩ | ⟨file, hfiles, hload⟩ := named_cases w p
    · rw [hload] at h
      cases h
    · rw [hload] at h
      rw [hfiles]
      exact ofNamed_ok h
  | none =>
    obtain ⟨root, hroot⟩ := projectRoot_none w
    simp only [loadConfiguration, hroot] at h
    rw [configurationFiles, hroot]
    exact ofFiles_ok h

end Configurations

section Flags

open LoadedConfiguration

variable {w w' : World} {files : List Path} {origin : Option (Path × Configuration)}
  {loaded : LoadedConfiguration}

/-- A loaded configuration says what its file says. -/
theorem LoadedConfiguration.Origin.says (h : Origin w files origin loaded) :
    loaded.options = fileOptions origin ∧ (Mapping.keys loaded.options).Nodup ∧
    loaded.settings.engine = (fileEngine? origin).getD Variant.standard.text ∧
    (parse? Variant loaded.settings.engine).isSome = true ∧
    loaded.settings.engineDir = fileRoot? w origin := by
  have hknown : ∀ v : Variant, (parse? Variant v.text).isSome = true := by
    intro v
    cases v <;> decide
  induction h with
  | none => exact ⟨rfl, List.nodup_nil, rfl, hknown .standard, rfl⟩
  | @here file _ c hholds =>
    obtain ⟨_, _, _, _, hread⟩ := hholds
    obtain ⟨⟨v, hengine⟩, hnodup⟩ := Configuration.read_ok hread
    refine ⟨rfl, hnodup, rfl, ?_, rfl⟩
    rw [ofOrigin, hengine]
    exact hknown v
  | later _ _ ih => exact ih

theorem readTokens_ok (tokens : List String) : ∀ {done overrides : Mapping Value},
    readTokens done tokens = .ok overrides → overrides = done.layer (given tokens) := by
  induction tokens with
  | nil =>
    intro done overrides h
    cases h
    rfl
  | cons token tokens ih =>
    intro done overrides h
    rw [readTokens] at h
    split at h
    · cases h
    · rename_i name value hread
      have hgiven : given (token :: tokens) = (name, value) :: given tokens := by
        rw [given, List.filterMap_cons, hread]
        rfl
      rw [ih h, hgiven]
      rfl

/-- What the flags assign goes before what the configuration says, and the last token that assigns
an option before those before it. -/
theorem last?_options {tokens : List String} {overrides options : Mapping Value}
    (htokens : readAssignments tokens = .ok overrides) (hnodup : (Mapping.keys options).Nodup)
    (n : String) : Mapping.last? n (options.layer overrides) =
      (Mapping.last? n (given tokens)).or (Mapping.get? n options) := by
  have hgiven : overrides = Mapping.ofPairs (given tokens) := readTokens_ok tokens htokens
  have hlast : Mapping.last? n overrides = Mapping.last? n (given tokens) := by
    rw [hgiven, Mapping.last?_of_nodup (Mapping.nodup_ofPairs _), Mapping.ofPairs,
      Mapping.get?_layer]
    exact Option.or_none
  rw [Mapping.last?_of_nodup (Mapping.nodup_layer overrides hnodup), Mapping.get?_layer, hlast]

theorem create_named (settings : Settings) {options : Mapping Value} {name : Option String}
    {v : Variant} {store : Store} {journal : Log.Journal}
    (hv : parse? Variant (name.getD settings.engine) = some v)
    (hstore : Store.create v options = (.ok store, journal)) :
    ∃ settings', Checker.create w options (name.map .str) settings none =
      (.ok ⟨settings', v, Loader.create w settings.engineDir, store, none⟩, w.log journal) := by
  simp only [Checker.create, editionSettings_named, resolveVariant_some hv, hstore]
  exact ⟨_, rfl⟩

theorem root_create (w : World) (dir : Option Path) :
    (Loader.create w dir).root = dir.getD (standardRoot w) := by
  cases dir with
  | some root => rfl
  | none =>
    rw [Loader.create, standardRoot]
    cases w.setting? directoryVariable <;> rfl

theorem isAbsolute_seenFrom (w : World) (file dir : Path) :
    (seenFrom w file dir).isAbsolute = true := by
  rw [seenFrom]
  split
  · assumption
  · rfl

/-- A directory that flags or configuration name is an absolute one. -/
theorem isAbsolute_named (w : World) (dir : Option Path)
    (origin : Option (Path × Configuration)) :
    ((dir.map w.resolve).or (fileRoot? w origin)).all Path.isAbsolute = true := by
  cases dir with
  | some dir => rfl
  | none =>
    cases origin with
    | none => rfl
    | some o =>
      rw [Option.map_none, Option.none_or, fileRoot?, Option.bind_some]
      cases o.2.settings.engineDir with
      | none => rfl
      | some dir => exact isAbsolute_seenFrom w o.1 dir

/-- Flags go before configuration, and configuration before defaults. -/
theorem get_created {v : Variant} {store : Store} {journal : Log.Journal} {tokens : List String}
    {overrides options : Mapping Value}
    (hcreate : Store.create v (options.layer overrides) = (.ok store, journal))
    (hnone : (options.layer overrides).has Store.swallowedName = false)
    (htokens : readAssignments tokens = .ok overrides) (hnodup : (Mapping.keys options).Nodup)
    (n : String) : store.get n = ((Mapping.last? n (given tokens)).or
      ((Mapping.get? n options).or (Mapping.get? n (defaults v)))).elim
        (.error (.noOption n)) .ok := by
  rw [Store.get_eq, (Store.shaped_create hcreate).1.get?_eq,
    Store.snapshot_create_eq hcreate hnone, resolve, Mapping.get?_layer,
    last?_options htokens hnodup, Option.or_assoc]

/-- Setting up a checker takes everything from the first place that has it, and succeeds if the
edition that is named is known and no option has one of the two special names. An option has the
value of the last token that assigns it, else that of the configuration file, else the default of
the edition, and no other option has a value. The edition is the one that a flag names, else that of
the file, else the standard one. Scripts are looked for in the directory that a flag names, else in
the one that the file names, seen from where it lies, else in that of the variable, else in the
library's own. Without a flag for the directory, the loaded configuration makes the same checker. A
directory with a NUL among the flags is no directory, and there is no checker. -/
theorem buildChecker_precedence {flags : CheckerFlags} {overrides : Mapping Value}
    (hload : loadConfiguration w flags.config none = (.ok loaded, w'))
    (htokens : readAssignments flags.options = .ok overrides)
    (hengine : ∀ name, flags.engine = some name → (parse? Variant name).isSome = true)
    (hnames : ∀ n ∈ [Store.refusedName, Store.swallowedName],
      loaded.options.has n = false ∧ overrides.has n = false) :
    (¬ flags.Placed w → ∃ w₁, buildChecker w flags = (.error .nulInPath, w₁)) ∧
    (flags.Placed w → ∃ origin c w₁, Origin w (configurationFiles w flags.config) origin loaded ∧
      buildChecker w flags = (.ok c, w₁) ∧
      (∀ n, c.store.get n = ((Mapping.last? n (given flags.options)).or
        ((Mapping.get? n (fileOptions origin)).or (Mapping.get? n (defaults c.variant)))).elim
          (.error (.noOption n)) .ok) ∧
      parse? Variant (flags.engine.getD ((fileEngine? origin).getD Variant.standard.text)) =
        some c.variant ∧
      c.loader.root =
        ((flags.engineDir.map w.resolve).or (fileRoot? w origin)).getD (standardRoot w) ∧
      ((flags.engineDir.map w.resolve).or (fileRoot? w origin)).all Path.isAbsolute = true ∧
      (flags.engineDir = none → ∀ w₂ : World,
        w₂.environment = w.environment → w₂.bundle = w.bundle →
        ∃ c' w₃, Checker.ofConfiguration w₂ loaded overrides (flags.engine.map .str) =
          (.ok c', w₃) ∧ c'.store.snapshot = c.store.snapshot ∧ c'.variant = c.variant ∧
          c'.loader.root = c.loader.root)) := by
  obtain ⟨origin, journal, horigin, rfl⟩ := loadConfiguration_origin hload
  refine ⟨fun hunplaced => ?_, fun hplaced => ?_⟩
  · obtain ⟨dir, hdir, hnul⟩ := (directory_cases w flags).resolve_right hunplaced
    exact buildChecker_misbuilds (.directory hload hdir hnul)
  · obtain ⟨hoptions, hnodup, hname, hknown, hroot⟩ := horigin.says
    obtain ⟨v, hv⟩ : ∃ v, parse? Variant (flags.engine.getD loaded.settings.engine) = some v := by
      rw [← Option.isSome_iff_exists]
      cases hflag : flags.engine with
      | none => exact hknown
      | some name => exact hengine name hflag
    have habsent : ∀ n ∈ [Store.refusedName, Store.swallowedName],
        (loaded.options.layer overrides).has n = false := by
      intro n hn
      rw [Mapping.has_layer, (hnames n hn).1, (hnames n hn).2]
      rfl
    have hcreate := Store.create_eq v (loaded.options.layer overrides)
    rw [habsent _ List.mem_cons_self, if_neg Bool.false_ne_true] at hcreate
    obtain ⟨settings, hmade⟩ := create_named (w := w.log journal)
      (settingsWith (w.log journal) flags loaded.settings) hv hcreate
    obtain ⟨_, hbuild⟩ := buildChecker_create_ok hload hplaced htokens hmade
    have hdir : (settingsWith (w.log journal) flags loaded.settings).engineDir =
        (flags.engineDir.map w.resolve).or (fileRoot? w origin) := by
      rw [← hroot]
      rfl
    have hnone := habsent _ (List.mem_cons_of_mem _ List.mem_cons_self)
    refine ⟨origin, _, _, horigin, hbuild, ?_, hname ▸ hv, ?_,
      isAbsolute_named w flags.engineDir origin, ?_⟩
    · intro n
      rw [← hoptions]
      exact get_created hcreate hnone htokens hnodup n
    · rw [root_create, hdir]
      rfl
    · intro hflag w₂ henvironment hbundle
      obtain ⟨settings', hmade'⟩ := create_named (w := w₂) loaded.settings hv hcreate
      refine ⟨_, _, hmade', rfl, rfl, ?_⟩
      rw [root_create, root_create, hdir, hroot, hflag, standardRoot, World.setting?, henvironment,
        hbundle]
      rfl

section Settled

/-- A configuration file for the strict edition, with a directory beside it, and a variable that
names another one. -/
def settledFile : Path := ⟨1, ["home", "jslintr.toml"]⟩

def settledText : String :=
  "engine='jslint'\nengine_dir='scripts'\noptions.strict=false\noptions.indent=2"

def settledDocument : Value :=
  .dict [(.str "engine", .str "jslint"), (.str "engine_dir", .str "scripts"),
    (.str "options", .dict [(.str "strict", .bool false), (.str "indent", .int 2)])]

def settledWorld : World :=
  ⟨⟨1, ["home"]⟩, ⟨1, ["lib"]⟩, [(directoryVariable, "other")],
    ⟨[(["home"], .directory), (settledFile.parts, .file (.text settledText))]⟩, [], []⟩

def settledConfiguration : LoadedConfiguration :=
  ⟨{ Settings.standard with engine := "jslint", engineDir := some ⟨1, ["home", "scripts"]⟩ },
    [("strict", .bool false), ("indent", .int 2)], some settledFile⟩

theorem readText_settled : settledWorld.readText settledFile = .ok settledText :=
  eq_ok_of_toOption (by decide +kernel)

theorem load_settled : ∃ journal, loadConfiguration settledWorld none none =
    (.ok settledConfiguration, settledWorld.log journal) := by
  have hroot : projectRoot settledWorld none = .ok ⟨1, ["home"]⟩ := rfl
  have hfiles : configurationNames.map (Path.child ⟨1, ["home"]⟩) =
      settledFile :: (configurationNames.map (Path.child ⟨1, ["home"]⟩)).tail := by
    decide +kernel
  have hfile : settledWorld.tree.isFile (settledWorld.absolute settledFile) = true := by
    decide +kernel
  have hread : Toml.read settledText.toList = .ok settledDocument :=
    eq_ok_of_toOption (by decide +kernel)
  have hdocument : readDocument settledWorld settledFile = .ok settledDocument := by
    rw [readDocument, readText_settled]
    simp only [hread]
  have hpayload : payload? settledFile settledDocument = .ok (some settledDocument) := rfl
  obtain ⟨c, hconfiguration, hsettled, hdir⟩ : ∃ c, Configuration.read settledDocument = .ok c ∧
      ofOrigin settledWorld settledFile c = settledConfiguration ∧
      c.settings.engineDir = some ⟨0, ["scripts"]⟩ := ⟨_, rfl, rfl, rfl⟩
  have hplaced : ¬ c.Unplaced := by
    rintro ⟨dir, hnamed, _, hnul⟩
    rw [hdir] at hnamed
    cases hnamed
    revert hnul
    decide
  have hload : ofFile settledWorld settledFile =
      (.ok (some settledConfiguration), settledWorld.log [loadedNotice settledFile c]) := by
    rw [ofFile_document hfile hdocument, ← hsettled]
    simp only [hpayload, ofPayload, hconfiguration, World.cwd_log, World.resolve_log,
      Configuration.settingsAt_placed (hasNul_file hfile) hplaced, ofOrigin]
  rw [loadConfiguration, hroot]
  dsimp only
  rw [hfiles, ofFiles, hload]
  exact ⟨_, rfl⟩

/-- Flags that assign an option of the file twice and another one with white space around it. -/
def settledFlags : CheckerFlags := ⟨none, ["indent=4", " curly = yes", "indent=8"], none, none⟩

theorem given_settled : given settledFlags.options =
    [("indent", .int 4), ("curly", .str "yes"), ("indent", .int 8)] := by
  decide +kernel

theorem buildChecker_precedence_file :
    ∃ c w₁, buildChecker settledWorld settledFlags = (.ok c, w₁) ∧
      c.store.get "indent" = .ok (.int 8) ∧ c.store.get "strict" = .ok (.bool false) ∧
      c.store.get "curly" = .ok (.str "yes") ∧ c.store.get "white" = .ok (.bool false) ∧
      c.store.get "asi" = .error (.noOption "asi") ∧ c.variant = .jslint ∧
      c.loader.root = ⟨1, ["home", "scripts"]⟩ := by
  obtain ⟨journal, hload⟩ : ∃ journal, loadConfiguration settledWorld settledFlags.config none =
      (.ok settledConfiguration, settledWorld.log journal) := load_settled
  have htokens : readAssignments settledFlags.options =
      .ok [("indent", .int 8), ("curly", .str "yes")] :=
    eq_ok_of_toOption (by decide +kernel)
  have hengine : ∀ name, settledFlags.engine = some name →
      (parse? Variant name).isSome = true := by
    intro name h
    change none = some name at h
    cases h
  have hnames : ∀ n ∈ [Store.refusedName, Store.swallowedName],
      settledConfiguration.options.has n = false ∧
      Mapping.has n [("indent", Value.int 8), ("curly", .str "yes")] = false := by
    decide +kernel
  have hsettled := buildChecker_precedence hload htokens hengine hnames
  have hplaced : settledFlags.Placed (settledWorld.log journal) := by
    intro dir hdir
    cases hdir
  obtain ⟨origin, c, w₁, horigin, hbuild, hget, hvariant, hroot, -⟩ := hsettled.2 hplaced
  obtain ⟨hoptions, -, hname, -, hdir⟩ := horigin.says
  rw [← hname] at hvariant
  rw [← hdir] at hroot
  have hedition : c.variant = .jslint := by
    have hparse : parse? Variant "jslint" = some .jslint := by decide
    exact Option.some.inj (hvariant.symm.trans hparse)
  rw [given_settled, ← hoptions, hedition] at hget
  exact ⟨c, w₁, hbuild, (hget "indent").trans rfl, (hget "strict").trans rfl,
    (hget "curly").trans rfl, (hget "white").trans rfl, (hget "asi").trans rfl, hedition, hroot⟩

end Settled

end Flags

end ScriptLint
