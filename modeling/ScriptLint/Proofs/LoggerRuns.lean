import ScriptLint.Log.Setup
import ScriptLint.Proofs.Digits
import ScriptLint.Proofs.Mappings

/-!
# ScriptLint.Proofs.LoggerRuns

The loggers over a run of calls that set them up. A call takes the place of the ones before it or
changes nothing at all, so only the last one that succeeded can be told from the loggers.

* `SetupCall`: a call, with what it says and what its environment says
* `formatWord`, `weight`: the format and the level that are meant
* `Succeeds`: the format is known and the level has a name
* `Loggers.Follow`: loggers as a call leaves them
* `perform_cases`: one call
* `after_run`: a run of calls
* `configure_run`: any call of a run
-/

namespace ScriptLint.Log

open Mapping

/-- A call that sets up the loggers. What it says of the format, if anything, is a text or a member
of a choice. -/
structure SetupCall where
  world : World
  format : Option Value
  level : Option LevelChoice
  text_of_format : ∀ v, format = some v → ∃ name, v.asText? = some name

/-- The name in a choice of a level, which may be a number instead. -/
def LevelChoice.name? : LevelChoice → Option String
  | .weight _ => none
  | .named name => some name

namespace SetupCall

variable (c : SetupCall)

def perform (l : Loggers) : Except Fault Setup × Loggers := l.configure c.world c.format c.level

/-- The word of the call itself, else that of a variable unless it is empty, else a fixed one. -/
def word (said : Option String) (variableName fallback : String) : String :=
  (said.or ((c.world.environment.get? variableName).filter fun s => s ≠ "")).getD fallback

/-- The name of the format that is meant. -/
def formatWord : String := c.word (c.format.bind Value.asText?) formatVariable "text"

/-- The level that is meant: a number, or one of four by its name. Every other name means `info`. -/
def weight : Int :=
  match c.level with
  | some (.weight level) => level
  | level =>
    let name := c.word (level.bind LevelChoice.name?) levelVariable "warning"
    (get? (fold name) namedLevels).getD info

/-- The call names a format, after trimming and in any letter case. -/
def NamesFormat : Prop := fold c.formatWord ∈ ["text", "json"]

instance : Decidable c.NamesFormat := inferInstanceAs (Decidable (_ ∈ _))

/-- The level that is meant is part of its name if it has none of its own, so it has to be
written. -/
def NamesLevel : Prop := Digits.isWritable c.weight = true

instance : Decidable c.NamesLevel := inferInstanceAs (Decidable (_ = _))

/-- The call names a format and a level. -/
def Succeeds : Prop := c.NamesFormat ∧ c.NamesLevel

instance : Decidable c.Succeeds := inferInstanceAs (Decidable (_ ∧ _))

end SetupCall

/-- The state `l'` after a call that succeeded, from `l`: one handler for the format, and one level
for the root and all children. Other children stay as they were. -/
structure Loggers.Follow (l l' : Loggers) (format : LogFormat) (weight : Int) : Prop where
  handlers : l'.handlers = [format]
  level : l'.level = weight
  propagates : l'.propagates = false
  children : ∀ name ∈ childLoggers, get? name l'.children = some weight
  others : ∀ name ∉ childLoggers, get? name l'.children = get? name l.children

namespace Loggers

theorem foldl_setChildLevel (level : Int) (names : List String) : ∀ l : Loggers,
    names.foldl (setChildLevel level) l =
      { l with children := layer l.children (names.map fun n => (n, level)) } := by
  induction names with
  | nil => intro l; rfl
  | cons n names ih =>
    intro l
    rw [List.foldl_cons, ih]
    rfl

theorem adopt_eq (l : Loggers) (s : Setup) : l.adopt s =
    ⟨[s.format], s.level, false, layer l.children (childLoggers.map fun n => (n, s.level))⟩ :=
  foldl_setChildLevel s.level childLoggers _

/-- A setup takes the place of what was there. -/
theorem follow_adopt (l : Loggers) (s : Setup) : l.Follow (l.adopt s) s.format s.level := by
  have hnodup : (keys (childLoggers.map fun n => (n, s.level))).Nodup := by
    rw [keys_each]
    decide
  have hchildren : ∀ name,
      get? name (layer l.children (childLoggers.map fun n => (n, s.level))) =
        (if name ∈ childLoggers then some s.level else none).or (get? name l.children) := by
    intro name
    rw [get?_layer, last?_of_nodup hnodup, get?_each]
  rw [adopt_eq]
  refine ⟨rfl, rfl, rfl, fun name hname => ?_, fun name hname => ?_⟩
  · rw [hchildren, if_pos hname, Option.some_or]
  · rw [hchildren, if_neg hname, Option.none_or]

/-- Of two setups the second one counts. -/
theorem Follow.trans {l l' l'' : Loggers} {format format' : LogFormat} {weight weight' : Int}
    (h : l.Follow l' format weight) (h' : l'.Follow l'' format' weight') :
    l.Follow l'' format' weight' :=
  { h' with others := fun name hname => (h'.others name hname).trans (h.others name hname) }

/-- The loggers after calls, one after the other. -/
def after (l : Loggers) (calls : List SetupCall) : Loggers :=
  calls.foldl (fun l c => (c.perform l).2) l

end Loggers

namespace SetupCall

theorem effective_eq (c : SetupCall) (said : Option String) (variableName fallback : String) :
    effective c.world said variableName fallback = c.word said variableName fallback := by
  cases said with
  | some name => rfl
  | none =>
    rw [effective, word, World.setting?]
    cases hvalue : c.world.environment.get? variableName with
    | none => rfl
    | some value =>
      by_cases h : value = ""
      · subst h
        rfl
      · simp [h, Option.filter]

/-- A name of a format is its text, after trimming and in any letter case. -/
theorem formatNamed_cases (name : String) :
    (fold name ∈ ["text", "json"] ∧
      ∃ format : LogFormat, Named.text format = fold name ∧ formatNamed name = .ok format) ∨
    (fold name ∉ ["text", "json"] ∧
      formatNamed name = .error (.unknownChoice (Named.label LogFormat) name)) := by
  rw [formatNamed]
  cases hparse : parse? LogFormat name with
  | some format =>
    have htext : Named.text format = fold name := by
      simpa using List.find?_some hparse
    refine .inl ⟨?_, format, htext, rfl⟩
    rw [← htext]
    cases format <;> decide
  | none =>
    have hnone := List.find?_eq_none.1 hparse
    refine .inr ⟨?_, rfl⟩
    have htext := hnone .text (by decide)
    have hjson := hnone .json (by decide)
    simp only [beq_iff_eq] at htext hjson
    simp only [List.mem_cons, List.not_mem_nil, or_false, not_or]
    exact ⟨Ne.symm htext, Ne.symm hjson⟩

theorem chosenFormat_eq (c : SetupCall) :
    chosenFormat c.world c.format = formatNamed c.formatWord := by
  rw [formatWord, ← effective_eq]
  cases hformat : c.format with
  | none => rfl
  | some v =>
    obtain ⟨name, hname⟩ := c.text_of_format v hformat
    rw [Option.bind_some, hname, effective]
    by_cases hmember : ∃ format, v = .choice (.logFormat format)
    · obtain ⟨format, rfl⟩ := hmember
      cases hname
      cases format <;> rfl
    · rw [chosenFormat]
      · rw [hname]
      · intro format h
        exact hmember ⟨format, h⟩

theorem levelNamed_fst (raw : String) :
    (levelNamed raw).1 = (get? (fold raw) namedLevels).getD info := by
  rw [levelNamed, get?_eq_find?]
  cases namedLevels.find? fun l => l.1 == fold raw <;> rfl

theorem isWritable_info : Digits.isWritable info = true := by decide

theorem isWritable_namedLevels : ∀ l ∈ namedLevels, Digits.isWritable l.2 = true := by decide

/-- The levels with names are all written. -/
theorem isWritable_levelNamed (raw : String) : Digits.isWritable (levelNamed raw).1 = true := by
  rw [levelNamed]
  cases hfind : namedLevels.find? fun l => l.1 == fold raw with
  | none => exact isWritable_info
  | some l => exact isWritable_namedLevels l (List.mem_of_find?_eq_some hfind)

theorem chosenLevel_named (c : SetupCall) (said : Option String)
    (hweight : c.weight = (levelNamed (effective c.world said levelVariable "warning")).1)
    (hchosen : chosenLevel c.world c.level =
      .ok (levelNamed (effective c.world said levelVariable "warning"))) :
    c.NamesLevel ∧ ∃ name, chosenLevel c.world c.level = .ok (c.weight, name) := by
  have hwritable := isWritable_levelNamed (effective c.world said levelVariable "warning")
  revert hweight hchosen hwritable
  generalize levelNamed (effective c.world said levelVariable "warning") = chosen
  intro hweight hchosen hwritable
  rw [NamesLevel, hweight, hchosen]
  exact ⟨hwritable, chosen.2, rfl⟩

/-- The level that is meant, unless it is a number with too many digits for its name. -/
theorem chosenLevel_cases (c : SetupCall) :
    (c.NamesLevel ∧ ∃ name, chosenLevel c.world c.level = .ok (c.weight, name)) ∨
    (¬ c.NamesLevel ∧ chosenLevel c.world c.level = .error .unwritable) := by
  cases hlevel : c.level with
  | none =>
    refine .inl (hlevel ▸ c.chosenLevel_named none ?_ ?_)
    · rw [weight, hlevel, levelNamed_fst, effective_eq]
      rfl
    · rw [hlevel, chosenLevel]
  | some choice =>
    cases choice with
    | weight level =>
      have hweight : c.weight = level := by rw [weight, hlevel]
      rw [chosenLevel, levelName, NamesLevel, hweight]
      cases Digits.isWritable level with
      | true => exact .inl ⟨rfl, _, rfl⟩
      | false => exact .inr ⟨Bool.false_ne_true, rfl⟩
    | named name =>
      refine .inl (hlevel ▸ c.chosenLevel_named (some name) ?_ ?_)
      · rw [weight, hlevel, levelNamed_fst, effective_eq]
        rfl
      · rw [hlevel, chosenLevel]

/-- Why a call fails: for its format, which is asked for first, or for its level. -/
def flaw (c : SetupCall) : Fault :=
  if c.NamesFormat then .unwritable
  else .unknownChoice (Named.label LogFormat) c.formatWord

/-- One call: it names a format and a level and the loggers follow it, or it does not and nothing
changes. -/
theorem perform_cases (c : SetupCall) (l : Loggers) :
    (c.Succeeds ∧ ∃ s l', c.perform l = (.ok s, l') ∧ Named.text s.format = fold c.formatWord ∧
      s.level = c.weight ∧ l.Follow l' s.format c.weight) ∨
    (¬ c.Succeeds ∧ c.perform l = (.error c.flaw, l)) := by
  obtain ⟨hnames, format, htext, hformat⟩ | ⟨hnames, hformat⟩ := formatNamed_cases c.formatWord
  · obtain ⟨hlevel, name, hchosen⟩ | ⟨hlevel, hchosen⟩ := c.chosenLevel_cases
    · have hperform : c.perform l =
          (.ok ⟨format, c.weight, name⟩, l.adopt ⟨format, c.weight, name⟩) := by
        rw [perform, Loggers.configure, chosenFormat_eq, hformat]
        simp only [hchosen]
      exact .inl ⟨⟨hnames, hlevel⟩, _, _, hperform, htext, rfl, l.follow_adopt _⟩
    · refine .inr ⟨fun h => hlevel h.2, ?_⟩
      have hflaw : c.flaw = .unwritable := if_pos hnames
      rw [perform, Loggers.configure, chosenFormat_eq, hformat, hflaw]
      simp only [hchosen]
  · refine .inr ⟨fun h => hnames h.1, ?_⟩
    have hflaw : c.flaw = .unknownChoice (Named.label LogFormat) c.formatWord := if_neg hnames
    rw [perform, Loggers.configure, chosenFormat_eq, hformat, hflaw]

end SetupCall

/-- The last call of a run that succeeds. -/
def lastSetting? (calls : List SetupCall) : Option SetupCall :=
  (calls.filter fun c => c.Succeeds).getLast?

/-- A run: the loggers follow the last call that succeeds, and without one nothing changes. -/
theorem after_run (calls : List SetupCall) : ∀ l : Loggers,
    (lastSetting? calls = none ∧ l.after calls = l) ∨
    (∃ c format, lastSetting? calls = some c ∧ Named.text format = fold c.formatWord ∧
      l.Follow (l.after calls) format c.weight) := by
  induction calls with
  | nil => exact fun l => .inl ⟨rfl, rfl⟩
  | cons c calls ih =>
    intro l
    have hafter : l.after (c :: calls) = (c.perform l).2.after calls := rfl
    obtain ⟨hsets, s, l', hperform, htext, _, hfollow⟩ | ⟨hfails, hperform⟩ := c.perform_cases l
    · have hlast : lastSetting? (c :: calls) = some ((lastSetting? calls).getD c) := by
        rw [lastSetting?, List.filter_cons_of_pos (by simpa using hsets), List.getLast?_cons]
        rfl
      rw [hafter, hperform, hlast]
      obtain ⟨hnone, hsame⟩ | ⟨c', format, hsome, htext', hfollow'⟩ := ih l'
      · rw [hnone, hsame]
        exact .inr ⟨c, s.format, rfl, htext, hfollow⟩
      · rw [hsome]
        exact .inr ⟨c', format, rfl, htext', hfollow.trans hfollow'⟩
    · have hlast : lastSetting? (c :: calls) = lastSetting? calls := by
        rw [lastSetting?, List.filter_cons_of_neg (by simpa using hfails)]
        rfl
      rw [hafter, hperform, hlast]
      exact ih l

section Mixed

/-- A call in a world where only the environment counts. Of the format it says a text or nothing. -/
def callIn (environment : Mapping String) (format : Option String) (level : Option LevelChoice) :
    SetupCall :=
  ⟨⟨⟨1, []⟩, ⟨1, ["lib"]⟩, environment, .empty, [], []⟩, format.map .str, level, by
    intro v hv
    obtain ⟨name, _, rfl⟩ := Option.map_eq_some_iff.1 hv
    exact ⟨name, rfl⟩⟩

/-- Three calls, of which the second fails and the last takes nothing from an empty variable. -/
def mixedCalls : List SetupCall :=
  [callIn [] (some "\tJSON ") (some (.weight 5)),
    callIn [(formatVariable, "xml")] none none,
    callIn [(formatVariable, ""), (levelVariable, " Error")] none none]

end Mixed

end ScriptLint.Log
