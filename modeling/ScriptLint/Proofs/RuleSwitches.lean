import ScriptLint.Proofs.FirstFinding
import ScriptLint.Proofs.MaskedSources

/-!
# ScriptLint.Proofs.RuleSwitches

Rules are independent of one another. To turn a rule off by its switch takes its findings away, and
leaves all others as they are, in their order.

* `Lever`, `levers`: the switches of an edition, each with its rule
* `Lever.isOn_turnedOff`: a switch turns off its own rule only
* `without_report`, `without_apply`: the findings that are left without those of a rule
* `walk_without`: from the check of one line to all lines of a text
* `rules_independent`: the records of the scripts of the library
-/

namespace ScriptLint.Analysis

open ScriptLint.Text

section Levers

/-- A switch that a rule hangs on, and how it has to be set for the rule to be looked at. -/
structure Lever where
  switch : Switch
  rule : Rule
  setting : Bool
  deriving DecidableEq, Repr

/-- The switches of an edition with their rules. -/
def levers : Variant → List Lever
  | .jslint => [⟨.strict, .strict, true⟩, ⟨.eqeqeq, .eqeqeq, true⟩, ⟨.evil, .evil, false⟩,
      ⟨.plusplus, .plusplus, true⟩, ⟨.debug, .debug, false⟩, ⟨.nomen, .nomen, true⟩,
      ⟨.white, .white, true⟩]
  | .jshint => [⟨.strict, .strict, true⟩, ⟨.eqeqeq, .eqeqeq, true⟩, ⟨.evil, .evil, false⟩,
      ⟨.plusplus, .plusplus, true⟩, ⟨.debug, .debug, false⟩, ⟨.devel, .devel, false⟩,
      ⟨.noarg, .noarg, true⟩, ⟨.nonew, .nonew, true⟩, ⟨.boss, .boss, false⟩,
      ⟨.curly, .curly, true⟩, ⟨.noempty, .noempty, true⟩, ⟨.white, .white, true⟩,
      ⟨.asi, .semicolon, false⟩]

/-- Every option that an edition looks at is one of its levers, but for `passfail`. -/
theorem levers_consulted (v : Variant) :
    (levers v).map Lever.switch = (consulted v).filter (· != .passfail) := by
  cases v <;> decide

/-- Two levers of an edition have neither switch nor rule in common. -/
theorem lever_unique {v : Variant} {k l : Lever} (hk : k ∈ levers v) (hl : l ∈ levers v)
    (h : k.switch = l.switch ∨ k.rule = l.rule) : k = l := by
  have hall : ∀ v, ∀ k ∈ levers v, ∀ l ∈ levers v,
      k.switch = l.switch ∨ k.rule = l.rule → k = l := by
    intro v
    cases v <;> decide
  exact hall v k hk l hl h

namespace Lever

/-- The rule of the lever is looked at. -/
def isOn (l : Lever) (on : Switches) : Bool := on l.switch == l.setting

/-- The same switches, but for that of the lever, which is set so that its rule is off. -/
def turnedOff (l : Lever) (on : Switches) : Switches :=
  fun s => if s = l.switch then !l.setting else on s

theorem turnedOff_ne {l : Lever} {s : Switch} (h : s ≠ l.switch) (on : Switches) :
    l.turnedOff on s = on s := if_neg h

/-- A lever that is turned off turns off its own rule, and no other. -/
theorem isOn_turnedOff {v : Variant} {k l : Lever} (hk : k ∈ levers v) (hl : l ∈ levers v)
    (on : Switches) : k.isOn (l.turnedOff on) = (k.isOn on && k.rule != l.rule) := by
  by_cases h : k.switch = l.switch
  · obtain rfl := lever_unique hk hl (.inl h)
    rw [isOn, turnedOff, if_pos rfl]
    cases k.setting <;> simp
  · have hrule : (k.rule != l.rule) = true := by
      rw [bne_iff_ne]
      intro heq
      exact h (congrArg switch (lever_unique hk hl (.inr heq)))
    rw [isOn, isOn, turnedOff_ne h, hrule, Bool.and_true]

section Settings

variable {v : Variant} {l : Lever} {s : Switch} {rule : Rule} (hl : l ∈ levers v) (on : Switches)
include hl

/-- A switch that has to be on for its rule. -/
theorem turnedOff_on (h : ⟨s, rule, true⟩ ∈ levers v) :
    l.turnedOff on s = (on s && rule != l.rule) := by
  have hoff := isOn_turnedOff h hl on
  rwa [isOn, isOn, beq_true, beq_true] at hoff

/-- A switch that has to be off for its rule. -/
theorem turnedOff_off (h : ⟨s, rule, false⟩ ∈ levers v) :
    (!l.turnedOff on s) = (!on s && rule != l.rule) := by
  have hoff := isOn_turnedOff h hl on
  rwa [isOn, isOn, beq_false, beq_false] at hoff

end Settings

end Lever

end Levers

section Without

/-- Findings but for those of one rule. -/
def without (rule : Rule) (fs : List Finding) : List Finding := fs.filter (·.rule != rule)

variable (rule : Rule)

theorem without_append (fs gs : List Finding) :
    without rule (fs ++ gs) = without rule fs ++ without rule gs := List.filter_append ..

theorem without_ite (active : Bool) (f : Finding) :
    without rule (if active then [f] else []) = if active && f.rule != rule then [f] else [] := by
  cases active with
  | false => rfl
  | true => cases hkept : f.rule != rule <;> simp [without, hkept]

theorem without_report {α : Type} (active : Bool) (r : Rule) (line : Nat) (text : List Char)
    (found : Option (Nat × α)) (reason : α → String) :
    without rule (Lint.report active r line text found reason) =
      Lint.report (active && r != rule) r line text found reason := by
  cases found with
  | none => cases active <;> cases r != rule <;> rfl
  | some found =>
    have hite : ∀ active, Lint.report active r line text (some found) reason =
        if active then [⟨r, line, found.1, reason found.2, text⟩] else [] := by
      intro active
      cases active <;> rfl
    rw [hite, hite, without_ite]

theorem without_apply {r : Hint.LineRule} {on on' : Switches}
    (h : r.active on' = (r.active on && r.rule != rule)) (line : Nat) (text code : List Char) :
    r.apply on' line text code = without rule (r.apply on line text code) := by
  rw [Hint.LineRule.apply, Hint.LineRule.apply, h]
  cases r.check code with
  | none => cases r.active on <;> cases r.rule != rule <;> rfl
  | some found =>
    obtain ⟨column, reason⟩ := found
    exact (without_ite rule _ ⟨r.rule, line, column, reason, text⟩).symm

/-- Where a check leaves out the findings of a rule on every line, so does walking through a text. -/
theorem walk_without {mask : Bool → List Char → Masked}
    {check check' : Nat → List Char → Masked → List Finding}
    (hcheck : ∀ line text m, check' line text m = without rule (check line text m))
    (texts : List (List Char)) (inComment : Bool) (line : Nat) :
    walk mask check' inComment line texts = without rule (walk mask check inComment line texts) := by
  rw [walk_eq_maskLines, walk_eq_maskLines, without, List.filter_flatMap]
  simp only [hcheck, without]

end Without

section Editions

variable {l : Lever} (on : Switches)

/-- The strict edition on one line. -/
theorem Lint.lineFindings_turnedOff (hl : l ∈ levers .jslint) (line : Nat) (text : List Char)
    (m : Masked) :
    lineFindings (l.turnedOff on) line text m = without l.rule (lineFindings on line text m) := by
  have hsemicolon : (Rule.semicolon != l.rule) = true := by
    have hall : ∀ l ∈ levers .jslint, (Rule.semicolon != l.rule) = true := by decide
    exact hall l hl
  rw [lineFindings, lineFindings]
  split
  · rfl
  · simp only [without_append, without_report, hsemicolon, Bool.and_true, Bool.and_right_comm,
      Lever.turnedOff_on hl on (by decide : ⟨.eqeqeq, .eqeqeq, true⟩ ∈ levers .jslint),
      Lever.turnedOff_off hl on (by decide : ⟨.evil, .evil, false⟩ ∈ levers .jslint),
      Lever.turnedOff_on hl on (by decide : ⟨.plusplus, .plusplus, true⟩ ∈ levers .jslint),
      Lever.turnedOff_off hl on (by decide : ⟨.debug, .debug, false⟩ ∈ levers .jslint),
      Lever.turnedOff_on hl on (by decide : ⟨.nomen, .nomen, true⟩ ∈ levers .jslint),
      Lever.turnedOff_on hl on (by decide : ⟨.white, .white, true⟩ ∈ levers .jslint)]

/-- Every row of the table hangs on a lever. -/
theorem Hint.lever_rules : ∀ r ∈ rules, ∃ k ∈ levers .jshint, k.rule = r.rule ∧
    ∀ on, r.active on = k.isOn on := by
  have hon : ∀ {s rule}, ⟨s, rule, true⟩ ∈ levers .jshint → ∃ k ∈ levers .jshint, k.rule = rule ∧
      ∀ on : Switches, on s = k.isOn on := by
    intro s rule h
    exact ⟨_, h, rfl, fun on => (beq_true _).symm⟩
  have hoff : ∀ {s rule}, ⟨s, rule, false⟩ ∈ levers .jshint → ∃ k ∈ levers .jshint, k.rule = rule ∧
      ∀ on : Switches, (!on s) = k.isOn on := by
    intro s rule h
    exact ⟨_, h, rfl, fun on => (beq_false _).symm⟩
  intro r hr
  simp only [rules, List.mem_cons, List.not_mem_nil, or_false] at hr
  -- one case for each rule, in the order of the table
  rcases hr with rfl | rfl | rfl | rfl | rfl | rfl | rfl | rfl | rfl | rfl
  · exact hon (s := .eqeqeq) (by decide)
  · exact hoff (s := .evil) (by decide)
  · exact hon (s := .plusplus) (by decide)
  · exact hoff (s := .debug) (by decide)
  · exact hoff (s := .devel) (by decide)
  · exact hon (s := .noarg) (by decide)
  · exact hon (s := .nonew) (by decide)
  · exact hoff (s := .boss) (by decide)
  · exact hon (s := .curly) (by decide)
  · exact hon (s := .noempty) (by decide)

/-- The lenient edition on one line. -/
theorem Hint.lineFindings_turnedOff (hl : l ∈ levers .jshint) (line : Nat) (text : List Char)
    (m : Masked) :
    lineFindings (l.turnedOff on) line text m = without l.rule (lineFindings on line text m) := by
  have hrules : rules.flatMap (·.apply (l.turnedOff on) line text m.code) =
      without l.rule (rules.flatMap (·.apply on line text m.code)) := by
    rw [without, List.filter_flatMap, List.flatMap_def, List.flatMap_def]
    refine congrArg List.flatten (List.map_congr_left fun r hr => ?_)
    obtain ⟨k, hk, hrule, hactive⟩ := lever_rules r hr
    refine without_apply l.rule ?_ line text m.code
    rw [hactive, hactive, ← hrule, Lever.isOn_turnedOff hk hl]
  rw [lineFindings, lineFindings]
  split
  · rfl
  · simp only [without_append, without_ite, hrules, Bool.and_right_comm,
      Lever.turnedOff_on hl on (by decide : ⟨.white, .white, true⟩ ∈ levers .jshint),
      Lever.turnedOff_off hl on (by decide : ⟨.asi, .semicolon, false⟩ ∈ levers .jshint)]

theorem checkOf_turnedOff {v : Variant} (hl : l ∈ levers v) (line : Nat) (text : List Char)
    (m : Masked) :
    checkOf v (l.turnedOff on) line text m = without l.rule (checkOf v on line text m) := by
  cases v with
  | jslint => exact Lint.lineFindings_turnedOff on hl line text m
  | jshint => exact Hint.lineFindings_turnedOff on hl line text m

/-- All findings of an edition, which does not give up. -/
def findingsOf : Variant → Switches → List Char → List Finding
  | .jslint => Lint.findings
  | .jshint => Hint.findings

/-- The finding on the whole text, and those on its lines. -/
theorem findingsOf_eq (v : Variant) (source : List Char) :
    findingsOf v on source =
      (if on .strict && !declaresStrict source then
          [⟨.strict, 0, 0, "Missing \"use strict\" statement.", (lines source).headD []⟩] else [])
        ++ walk (maskOf v) (checkOf v on) false 0 (lines source) := by
  cases v <;> rfl

theorem findingsOf_turnedOff {v : Variant} (hl : l ∈ levers v) (source : List Char) :
    findingsOf v (l.turnedOff on) source = without l.rule (findingsOf v on source) := by
  have hstrict : ⟨.strict, .strict, true⟩ ∈ levers v := by cases v <;> decide
  rw [findingsOf_eq, findingsOf_eq, without_append, without_ite, Bool.and_right_comm,
    Lever.turnedOff_on hl on hstrict, walk_without l.rule (checkOf_turnedOff on hl)]

theorem bundledTrail_findingsOf {v : Variant} {on : Switches}
    (hpassfail : v = .jslint → on .passfail = false) (source : List Char) :
    bundledTrail v on source = (findingsOf v on source).map some := by
  cases v with
  | jslint => exact Lint.trail_off (hpassfail rfl) source
  | jshint => rfl

theorem told_findingsOf {v : Variant} {on : Switches} {source : List Char} {f : Finding}
    (h : f ∈ findingsOf v on source) : Rule.ofReason? f.reason = some f.rule := by
  cases v with
  | jslint => exact Lint.told_findings h
  | jshint => exact Hint.told_findings h

end Editions

end ScriptLint.Analysis

namespace ScriptLint

open Text Engine Analysis

/-- The rules of an edition are independent. Of two objects of options that differ, among the options
that the edition looks at, in the switch of one rule only, which the second sets so that the rule is
off, the second gives the findings of the first without those of the rule, in the same order; for the
strict edition `passfail` has to be off, since it would give up after any finding. So do the scripts
of the library. The rule of a finding is the one that its reason tells of. -/
theorem rules_independent (v : Variant) (l : Lever) (o o' : Options) (source : List Char)
    (hl : l ∈ levers v) (hoff : o'.isOn l.switch.name = !l.setting)
    (hsame : ∀ s ∈ consulted v, s ≠ l.switch → o.isOn s.name = o'.isOn s.name)
    (hpassfail : v = .jslint → o.isOn "passfail" = false) :
    ∃ fs : List Finding,
      bundledTrail v o.switches source = fs.map some ∧
      bundledTrail v o'.switches source = (fs.filter (·.rule != l.rule)).map some ∧
      (∀ f ∈ fs, Rule.ofReason? f.reason = some f.rule) ∧
      ∀ path options options' text, handOver options text = .ok (o, source) →
        handOver options' text = .ok (o', source) →
        Reports v path options text fs ∧
        Reports v path options' text (fs.filter (·.rule != l.rule)) := by
  have hagree : AgreeOn v o'.switches (l.turnedOff o.switches) := by
    intro s hs
    by_cases h : s = l.switch
    · rw [h]
      exact hoff.trans (if_pos rfl).symm
    · exact (hsame s hs h).symm.trans (Lever.turnedOff_ne h o.switches).symm
  have hpassfail' : v = .jslint → l.turnedOff o.switches .passfail = false := by
    rintro rfl
    have hall : ∀ l ∈ levers .jslint, Switch.passfail ≠ l.switch := by decide
    exact (Lever.turnedOff_ne (hall l hl) _).trans (hpassfail rfl)
  have htrail : bundledTrail v o.switches source = (findingsOf v o.switches source).map some :=
    bundledTrail_findingsOf hpassfail source
  have htrail' : bundledTrail v o'.switches source =
      ((findingsOf v o.switches source).filter (·.rule != l.rule)).map some := by
    rw [bundledTrail_congr hagree, bundledTrail_findingsOf hpassfail',
      findingsOf_turnedOff _ hl]
    rfl
  refine ⟨_, htrail, htrail', fun f hf => told_findingsOf hf, ?_⟩
  intro path options options' text hhand hhand'
  exact ⟨reports_trail hhand htrail, reports_trail hhand' htrail'⟩

/-- Options with `asi` as it is given. -/
def asiOptions (asi : Bool) : List (String × Value) :=
  [("eqeqeq", .bool true), ("curly", .bool true), ("asi", .bool asi)]

def asiObject (asi : Bool) : Options :=
  ⟨[("eqeqeq", .bool true), ("curly", .bool true), ("asi", .bool asi)], []⟩

theorem handOver_asi (asi : Bool) : handOver (asiOptions asi) "if (a != eval(b)) c\nd" =
    .ok (asiObject asi, "if (a != eval(b)) c\nd".toList) := by
  have hnames : ["eqeqeq", "curly", "asi"].Nodup := by decide
  have hproto : Options.prototypeName ∉ ["eqeqeq", "curly", "asi"] := by decide
  exact handOver_flags [("eqeqeq", true), ("curly", true), ("asi", asi)] hnames hproto _

theorem rules_independent_asi :
    ∃ fs : List Finding, fs.map Finding.rule = [.eqeqeq, .evil, .curly, .semicolon, .semicolon] ∧
      Reports .jshint (Path.parse "jshint.js") (asiOptions false) "if (a != eval(b)) c\nd" fs ∧
      Reports .jshint (Path.parse "jshint.js") (asiOptions true) "if (a != eval(b)) c\nd"
        (fs.filter (·.rule != .semicolon)) := by
  obtain ⟨fs, htrail, _, _, hreports⟩ := rules_independent .jshint ⟨.asi, .semicolon, false⟩
    (asiObject false) (asiObject true) "if (a != eval(b)) c\nd".toList (by decide) (by decide)
    (by decide) nofun
  have hfs := congrArg (List.filterMap id) htrail
  rw [filterMap_map_some] at hfs
  refine ⟨fs, ?_, hreports (Path.parse "jshint.js") _ _ _ (handOver_asi false) (handOver_asi true)⟩
  rw [← hfs]
  decide

end ScriptLint
