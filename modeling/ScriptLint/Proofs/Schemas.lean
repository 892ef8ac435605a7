import ScriptLint.Proofs.Records
import ScriptLint.Settings.Basic

/-!
# ScriptLint.Proofs.Schemas

Settings are read in two ways: those of a checker may name any engine, those of a configuration file
only an edition of the library. Apart from that, both take the same entries and make the same of
them, and what the second has made is taken by the first once more, as it is.

* `Settings.FieldsRead`: what entries say of all settings but the engine
* `Settings.read_eq_ok_iff`, `Configuration.readEntries_eq_ok_iff`: what is taken, and what is made
  of it
* `Settings.read_entries`: settings with possible limits are taken as they are
* `Configuration.schemas_agree`: the two ways compared
-/

namespace ScriptLint

namespace Settings

variable {es : Entries} {s : Settings} {engineOf : Value → Except Mistake String}

section Keys

theorem sameKey_name (k : Value) (name : String) :
    k.sameKey (.str name) = true ↔ k.asText? = some name := by
  cases k <;> simp [Value.sameKey, Value.asInt?, Value.asText?]

theorem valueAt?_of_absent {name : String} (h : ∀ e ∈ es, e.1.asText? ≠ some name) :
    valueAt? name es = none := by
  induction es with
  | nil => rfl
  | cons e es ih =>
    obtain ⟨k, v⟩ := e
    obtain ⟨hk, hes⟩ := List.forall_mem_cons.1 h
    rw [valueAt?, if_neg (mt (sameKey_name k name).1 hk), ih hes]

/-- Names that both lists of fields have, or neither has, are strange to both or to neither. -/
theorem strangers_congr {fields fields' : List String}
    (h : ∀ e ∈ es, ∃ name, e.1.asText? = some name ∧ fields.contains name = fields'.contains name) :
    strangers fields es = strangers fields' es := by
  induction es with
  | nil => rfl
  | cons e es ih =>
    obtain ⟨k, v⟩ := e
    obtain ⟨⟨name, hname, hsame⟩, hes⟩ := List.forall_mem_cons.1 h
    simp only [strangers, hname, hsame, ih hes]

theorem valueAt?_putEntry (name other : String) (v : Value) (es : Entries) :
    valueAt? other (Value.putEntry (.str name) v es) =
      if name = other then some v else valueAt? other es := by
  induction es with
  | nil => simp [Value.putEntry, valueAt?, sameKey_str]
  | cons e es ih =>
    obtain ⟨k, w⟩ := e
    rw [Value.putEntry]
    by_cases hk : k.sameKey (.str name) = true
    · have hother : k.sameKey (.str other) = true ↔ name = other := by
        rw [sameKey_name, (sameKey_name k name).1 hk, Option.some.injEq]
      rw [if_pos hk, valueAt?, valueAt?]
      simp only [hother]
      split <;> rfl
    · have hother : k.sameKey (.str other) = true → name ≠ other := by
        rintro h rfl
        exact hk h
      rw [if_neg hk, valueAt?, valueAt?, ih]
      split
      · rename_i h
        rw [if_neg (hother h)]
      · rfl

theorem strangers_putEntry {fields : List String} {name : String}
    (h : fields.contains name = true) (v : Value) (es : Entries) :
    strangers fields (Value.putEntry (.str name) v es) = strangers fields es := by
  induction es with
  | nil => simp only [Value.putEntry, strangers, Value.asText?, h, if_true]
  | cons e es ih =>
    obtain ⟨k, w⟩ := e
    rw [Value.putEntry]
    split
    · rename_i hk
      simp only [strangers, (sameKey_name k name).1 hk, h, if_true]
    · rw [strangers, strangers, ih]

end Keys

section Fields

/-- What entries say of all settings but the engine. -/
structure FieldsRead (es : Entries) (s : Settings) : Prop where
  engineDir : field es "engine_dir" standard.engineDir pathOf = .ok s.engineDir
  timeLimit : field es "time_limit" standard.timeLimit (limitOf "time_limit") = .ok s.timeLimit
  memoryLimit :
    field es "memory_limit" standard.memoryLimit (limitOf "memory_limit") = .ok s.memoryLimit
  maxStackSize :
    field es "max_stack_size" standard.maxStackSize (limitOf "max_stack_size") = .ok s.maxStackSize
  policy : field es "malformed_policy" standard.policy policyOf = .ok s.policy

theorem FieldsRead.engine (h : FieldsRead es s) (name : String) :
    FieldsRead es { s with engine := name } :=
  ⟨h.engineDir, h.timeLimit, h.memoryLimit, h.maxStackSize, h.policy⟩

theorem readFields_eq_ok_iff :
    readFields engineOf es = .ok s ↔
      field es "engine" standard.engine engineOf = .ok s.engine ∧ FieldsRead es s := by
  constructor
  · intro h
    rw [readFields] at h
    split at h
    · rename_i hengine hdir htime hmemory hstack hpolicy
      cases h
      exact ⟨hengine, hdir, htime, hmemory, hstack, hpolicy⟩
    · cases h
  · rintro ⟨hengine, hdir, htime, hmemory, hstack, hpolicy⟩
    simp only [readFields, hengine, hdir, htime, hmemory, hstack, hpolicy]

theorem read_eq_ok_iff :
    read es = .ok s ↔ readFields textOf es = .ok s ∧ strangers fieldNames es = [] := by
  rw [read]
  constructor
  · intro h
    split at h
    · rename_i hfields hstrangers
      cases h
      exact ⟨hfields, hstrangers⟩
    · cases h
  · rintro ⟨hfields, hstrangers⟩
    rw [hfields, hstrangers]

/-- The engine of a configuration file is a text that names an edition. -/
theorem knownEngineOf_eq_ok_iff {v : Value} {name : String} :
    knownEngineOf v = .ok name ↔
      ∃ text edition, textOf v = .ok text ∧ parse? Variant text = some edition ∧
        name = edition.text := by
  rw [knownEngineOf]
  cases textOf v with
  | error m => simp
  | ok text =>
    cases hparse : parse? Variant text with
    | none => simp [hparse]
    | some edition => simp [hparse, eq_comm]

theorem field_engine {name : String} :
    field es "engine" standard.engine knownEngineOf = .ok name ↔
      ∃ text edition, field es "engine" standard.engine textOf = .ok text ∧
        parse? Variant text = some edition ∧ name = edition.text := by
  rw [field, field]
  cases valueAt? "engine" es with
  | none =>
    have hstandard : parse? Variant standard.engine = some .standard := by decide
    constructor
    · intro h
      cases h
      exact ⟨_, _, rfl, hstandard, rfl⟩
    · rintro ⟨text, edition, ⟨⟩, hparse, rfl⟩
      rw [hstandard] at hparse
      cases hparse
      rfl
  | some v =>
    have hknown := @knownEngineOf_eq_ok_iff v name
    cases htext : textOf v <;> cases hengine : knownEngineOf v <;> simp_all

theorem field_putEntry {α : Type} {name other : String} (h : name ≠ other) (v : Value)
    (fallback : α) (convert : Value → Except Mistake α) :
    field (Value.putEntry (.str name) v es) other fallback convert =
      field es other fallback convert := by
  rw [field, field, valueAt?_putEntry, if_neg h]

theorem FieldsRead.putEngine (h : FieldsRead es s) (v : Value) :
    FieldsRead (Value.putEntry (.str "engine") v es) s := by
  constructor
  · rw [field_putEntry (by decide), h.engineDir]
  · rw [field_putEntry (by decide), h.timeLimit]
  · rw [field_putEntry (by decide), h.memoryLimit]
  · rw [field_putEntry (by decide), h.maxStackSize]
  · rw [field_putEntry (by decide), h.policy]

/-- Entries that are taken are taken with another engine as well. -/
theorem read_putEngine (h : read es = .ok s) (name : String) :
    read (Value.putEntry (.str "engine") (.str name) es) = .ok { s with engine := name } := by
  obtain ⟨hfields, hstrangers⟩ := read_eq_ok_iff.1 h
  have hcommon := (readFields_eq_ok_iff.1 hfields).2
  have hengine : field (Value.putEntry (.str "engine") (.str name) es) "engine" standard.engine
      textOf = .ok name := by
    rw [field, valueAt?_putEntry, if_pos rfl]
    rfl
  refine read_eq_ok_iff.2 ⟨readFields_eq_ok_iff.2 ⟨hengine, (hcommon.engine name).putEngine _⟩, ?_⟩
  rw [strangers_putEntry (by decide), hstrangers]

/-- The engine is the text that is given, or that of the standard edition. -/
theorem read_engine (h : read es = .ok s) :
    (valueAt? "engine" es = none ∧ s.engine = standard.engine) ∨
      ∃ v, valueAt? "engine" es = some v ∧ v.asText? = some s.engine := by
  have hengine := (readFields_eq_ok_iff.1 (read_eq_ok_iff.1 h).1).1
  rw [field] at hengine
  cases hv : valueAt? "engine" es with
  | none =>
    rw [hv] at hengine
    exact .inl ⟨rfl, (Except.ok.inj hengine).symm⟩
  | some v =>
    rw [hv] at hengine
    refine .inr ⟨v, rfl, ?_⟩
    cases htext : v.asText? <;> simp_all [textOf]

end Fields

section Limits

/-- No limit at all, or a positive one. -/
def LimitOk (limit : Option Int) : Prop := ∀ i, limit = some i → 0 < i

structure LimitsOk (s : Settings) : Prop where
  timeLimit : LimitOk s.timeLimit
  memoryLimit : LimitOk s.memoryLimit
  maxStackSize : LimitOk s.maxStackSize

theorem limitOf_ok {name : String} {v : Value} {limit : Option Int}
    (h : limitOf name v = .ok limit) : LimitOk limit := by
  unfold limitOf at h
  split at h
  · cases h
    exact nofun
  · split at h
    · split at h
      · rename_i hpositive
        cases h
        intro i hi
        cases hi
        exact hpositive
      · cases h
    · cases h

/-- A field is what its value converts to, or what holds without it. -/
theorem field_ok {α : Type} {name : String} {fallback a : α} {convert : Value → Except Mistake α}
    {P : α → Prop} (hfallback : P fallback) (hconvert : ∀ v a, convert v = .ok a → P a)
    (h : field es name fallback convert = .ok a) : P a := by
  rw [field] at h
  split at h
  · cases h
    exact hfallback
  · rename_i v _
    split at h
    · rename_i hv
      cases h
      exact hconvert v _ hv
    · cases h

theorem FieldsRead.limitsOk (h : FieldsRead es s) : LimitsOk s := by
  have htime : LimitOk standard.timeLimit := by
    intro i hi
    cases hi
    decide
  have hmemory : LimitOk standard.memoryLimit := by
    intro i hi
    cases hi
    decide
  have hstack : LimitOk standard.maxStackSize := by
    intro i hi
    cases hi
  exact ⟨field_ok htime (fun _ _ => limitOf_ok) h.timeLimit,
    field_ok hmemory (fun _ _ => limitOf_ok) h.memoryLimit,
    field_ok hstack (fun _ _ => limitOf_ok) h.maxStackSize⟩

theorem limitsOk_of_read (h : read es = .ok s) : LimitsOk s :=
  (readFields_eq_ok_iff.1 (read_eq_ok_iff.1 h).1).2.limitsOk

theorem limitOf_limit {limit : Option Int} (h : LimitOk limit) (name : String) :
    limitOf name (limit.elim .null .int) = .ok limit := by
  cases limit with
  | none => rfl
  | some i => simp only [Option.elim_some, limitOf, integerOf, if_pos (h i rfl)]

theorem policyOf_policy (p : Policy) : policyOf (.choice (.policy p)) = .ok p := by
  cases p <;> rfl

/-- Settings with possible limits are taken as they are. -/
theorem read_entries (h : LimitsOk s) : read s.entries = .ok s := by
  refine read_eq_ok_iff.2 ⟨readFields_eq_ok_iff.2 ⟨rfl, ?_, ?_, ?_, ?_, ?_⟩, rfl⟩
  · cases hdir : s.engineDir <;> simp [field, entries, valueAt?, sameKey_str, hdir, pathOf]
  · simp [field, entries, valueAt?, sameKey_str, limitOf_limit h.timeLimit]
  · simp [field, entries, valueAt?, sameKey_str, limitOf_limit h.memoryLimit]
  · simp [field, entries, valueAt?, sameKey_str, limitOf_limit h.maxStackSize]
  · simp [field, entries, valueAt?, sameKey_str, policyOf_policy]

end Limits

end Settings

namespace Configuration

open Settings

variable {es : Entries} {c : Configuration}

theorem readEntries_eq_ok_iff :
    readEntries es = .ok c ↔
      readFields knownEngineOf es = .ok c.settings ∧ readOptions es = .ok c.options ∧
        strangers fieldNames es = [] := by
  rw [readEntries]
  constructor
  · intro h
    split at h
    · rename_i hfields hoptions hstrangers
      cases h
      exact ⟨hfields, hoptions, hstrangers⟩
    · cases h
  · rintro ⟨hfields, hoptions, hstrangers⟩
    rw [hfields, hoptions, hstrangers]

/-- Entries that give no options are those of a configuration if they are those of a checker whose
engine is an edition. -/
theorem read_eq_ok_iff
    (hkeys : ∀ e ∈ es, ∃ name, e.1.asText? = some name ∧ name ≠ "options") :
    read (.dict es) = .ok c ↔
      ∃ s edition, Settings.read es = .ok s ∧ parse? Variant s.engine = some edition ∧
        c = ⟨{ s with engine := edition.text }, []⟩ := by
  have hoptions : readOptions es = .ok [] := by
    rw [readOptions, valueAt?_of_absent]
    intro e he h
    obtain ⟨name, hname, hne⟩ := hkeys e he
    rw [hname] at h
    exact hne (Option.some.inj h)
  have hstrangers : strangers fieldNames es = strangers Settings.fieldNames es := by
    refine strangers_congr fun e he => ?_
    obtain ⟨name, hname, hne⟩ := hkeys e he
    refine ⟨name, hname, ?_⟩
    simp [fieldNames, hne]
  rw [read, readEntries_eq_ok_iff, hoptions, hstrangers, readFields_eq_ok_iff, field_engine]
  constructor
  · rintro ⟨⟨⟨text, edition, hengine, hparse, hname⟩, hfields⟩, hnone, hstrange⟩
    have hread : Settings.read es = .ok { c.settings with engine := text } :=
      Settings.read_eq_ok_iff.2
        ⟨readFields_eq_ok_iff.2 ⟨hengine, hfields.engine text⟩, hstrange⟩
    refine ⟨_, edition, hread, hparse, ?_⟩
    obtain ⟨settings, options⟩ := c
    cases hnone
    exact congrArg (Configuration.mk · []) (by rw [← hname])
  · rintro ⟨s, edition, hread, hparse, rfl⟩
    obtain ⟨hfields, hstrange⟩ := Settings.read_eq_ok_iff.1 hread
    obtain ⟨hengine, hcommon⟩ := readFields_eq_ok_iff.1 hfields
    exact ⟨⟨⟨s.engine, edition, hengine, hparse, rfl⟩, hcommon.engine edition.text⟩, rfl, hstrange⟩

theorem settingsAt_none (c : Configuration) (cwd : Path) :
    c.settingsAt cwd none = .ok c.settings := by
  cases hdir : c.settings.engineDir <;> simp only [settingsAt, hdir]

theorem settingsAt_limits {cwd : Path} {baseDir : Option Path} {s : Settings}
    (hat : c.settingsAt cwd baseDir = .ok s) (h : LimitsOk c.settings) : LimitsOk s := by
  unfold settingsAt at hat
  split at hat
  · split at hat
    · cases hat
      exact h
    · split at hat
      · cases hat
        exact ⟨h.timeLimit, h.memoryLimit, h.maxStackSize⟩
      · cases hat
  · cases hat
    exact h

/-- Settings of a configuration are taken once more, whatever directory they are seen from. -/
theorem toSettings_eq (h : LimitsOk c.settings) (cwd : Path) (baseDir : Option Path) :
    c.toSettings cwd baseDir = c.settingsAt cwd baseDir := by
  rw [toSettings]
  cases hat : c.settingsAt cwd baseDir with
  | error f => rfl
  | ok s => simp only [read_entries (settingsAt_limits hat h)]

/-- Of entries without options, a configuration file takes those that a checker takes and that name
an edition if they name an engine. The settings of a checker that has the configuration are then
those that the checker makes of the same entries, but for the edition's own name as the engine; they
are what it makes of the entries with that name in the place of the engine. Every limit among them
is none at all or positive. -/
theorem schemas_agree
    (hkeys : ∀ e ∈ es, ∃ name, e.1.asText? = some name ∧ name ≠ "options") :
    ((∃ c, read (.dict es) = .ok c) ↔
      (∃ s, Settings.read es = .ok s) ∧ ∀ v, valueAt? "engine" es = some v →
        ∃ text edition, v.asText? = some text ∧ parse? Variant text = some edition) ∧
    ∀ c, read (.dict es) = .ok c → ∃ s edition,
      Settings.read es = .ok s ∧ parse? Variant s.engine = some edition ∧
      (∀ cwd, c.toSettings cwd none = .ok { s with engine := edition.text } ∧
        c.settingsAt cwd none = .ok { s with engine := edition.text }) ∧
      Settings.read (Value.putEntry (.str "engine") (.str edition.text) es) =
        .ok { s with engine := edition.text } ∧
      ∀ limit ∈ [s.timeLimit, s.memoryLimit, s.maxStackSize], LimitOk limit := by
  refine ⟨⟨?_, ?_⟩, ?_⟩
  · rintro ⟨c, hc⟩
    obtain ⟨s, edition, hread, hparse, _⟩ := (read_eq_ok_iff hkeys).1 hc
    refine ⟨⟨s, hread⟩, fun v hv => ⟨s.engine, edition, ?_, hparse⟩⟩
    obtain ⟨hnone, _⟩ | ⟨v', hv', htext⟩ := Settings.read_engine hread
    · rw [hv] at hnone
      cases hnone
    · rw [hv] at hv'
      cases hv'
      exact htext
  · rintro ⟨⟨s, hread⟩, hnamed⟩
    obtain ⟨edition, hparse⟩ : ∃ edition, parse? Variant s.engine = some edition := by
      obtain ⟨_, hengine⟩ | ⟨v, hv, htext⟩ := Settings.read_engine hread
      · exact ⟨.standard, by rw [hengine]; decide⟩
      · obtain ⟨text, edition, hgiven, hparse⟩ := hnamed v hv
        rw [htext] at hgiven
        cases hgiven
        exact ⟨edition, hparse⟩
    exact ⟨_, (read_eq_ok_iff hkeys).2 ⟨s, edition, hread, hparse, rfl⟩⟩
  · intro c hc
    obtain ⟨s, edition, hread, hparse, rfl⟩ := (read_eq_ok_iff hkeys).1 hc
    have hlimits := Settings.limitsOk_of_read hread
    refine ⟨s, edition, hread, hparse, fun cwd => ⟨?_, settingsAt_none _ cwd⟩,
      read_putEngine hread _, ?_⟩
    · rw [toSettings_eq ⟨hlimits.timeLimit, hlimits.memoryLimit, hlimits.maxStackSize⟩,
        settingsAt_none]
    · simp [hlimits.timeLimit, hlimits.memoryLimit, hlimits.maxStackSize]

/-- An edition in another spelling, under a key that is a member of a choice; limits as a text and
as a truth value. -/
def oddEntries : Entries :=
  [(.choice (.component .engine), .str " JSLint\t"), (.str "memory_limit", .str " 6_4 "),
    (.str "time_limit", .bool true)]

theorem schemas_agree_odd :
    ∃ c, read (.dict oddEntries) = .ok c ∧
      ∀ cwd, c.toSettings cwd none = .ok ⟨"jslint", none, some 1, some 64, none, .skip⟩ := by
  have hread : Settings.read oddEntries =
      .ok ⟨" JSLint\t", none, some 1, some 64, none, .skip⟩ := rfl
  have hkeys : ∀ e ∈ oddEntries, ∃ name, e.1.asText? = some name ∧ name ≠ "options" := by
    simp [oddEntries, Value.asText?, Choice.text, Named.text]
  have hnamed : ∀ v, valueAt? "engine" oddEntries = some v →
      ∃ text edition, v.asText? = some text ∧ parse? Variant text = some edition := by
    intro v hv
    cases hv
    exact ⟨_, .jslint, rfl, by decide⟩
  obtain ⟨htaken, hsettings⟩ := schemas_agree hkeys
  obtain ⟨c, hc⟩ := htaken.2 ⟨⟨_, hread⟩, hnamed⟩
  obtain ⟨s, edition, hs, hparse, hall, _⟩ := hsettings c hc
  rw [hread] at hs
  cases hs
  obtain rfl : edition = .jslint := by
    have hedition : parse? Variant " JSLint\t" = some .jslint := by decide
    rw [hedition] at hparse
    exact (Option.some.inj hparse).symm
  exact ⟨c, hc, fun cwd => (hall cwd).1⟩

end Configuration

end ScriptLint
