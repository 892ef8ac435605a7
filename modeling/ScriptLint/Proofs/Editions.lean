import ScriptLint.Proofs.BundledRun

/-!
# ScriptLint.Proofs.Editions

The two editions agree on the rules that they share. Where the lenient edition knows a rule too, it
finds the same places in the same order, although it masks lines in its own way and keeps its rules
in a table.

* `Rule.ofReason?`: the rule that a reason tells of
* `sites`: the places of findings, without their reasons
* `walk_sites`: from the check of one line to all lines of a text
* `findings_agree`: the findings of the two editions on the rules that they share
* `editions_agree`: the records of the two scripts of the library
-/

namespace ScriptLint.Analysis

open Text

section Reasons

/-- What the reasons of a rule start with. -/
def leads : List (String × Rule) :=
  [("Missing \"", .strict), ("Expected '=", .eqeqeq), ("Expected '!", .eqeqeq), ("eval", .evil),
    ("Unexpected '+", .plusplus), ("Unexpected '-", .plusplus), ("Unexpected u", .plusplus),
    ("Unexpected 'd", .debug), ("Forgotten", .debug), ("Unexpected d", .nomen),
    ("Unexpected t", .white), ("Trailing", .white), ("Missing s", .semicolon), ("'c", .devel),
    ("'a", .devel), ("Avoid", .noarg), ("Do not", .nonew), ("Expected a", .boss),
    ("Expected '\x7b", .curly), ("Empty", .noempty)]

/-- The rule that a reason tells of. -/
def Rule.ofReason? (reason : String) : Option Rule :=
  (leads.find? fun lead => lead.1.toList.isPrefixOf reason.toList).map Prod.snd

theorem ofReason?_strict :
    Rule.ofReason? "Missing \"use strict\" statement." = some .strict := by decide

/-- What a rule gives as its reason tells of it. -/
theorem Noticed.told {m : Masked} {rule : Rule} {column : Nat} {reason : String}
    (h : Noticed m rule column reason) : Rule.ofReason? reason = some rule := by
  cases h with
  | loose hfind =>
    obtain ⟨prev, cs, hop⟩ := search_match _ _ _ _ hfind
    rcases looseEquality_cases hop with rfl | rfl <;> decide
  | increment hfind hlead =>
    obtain ⟨prev, cs, hop⟩ := search_match _ _ _ _ hfind
    rcases increment_cases hop with rfl | rfl <;> rcases hlead with rfl | rfl <;> decide
  | dangling | body =>
    rw [Rule.ofReason?, String.toList_append, String.toList_append]
    rfl
  | developer hfind =>
    obtain ⟨prev, cs, hname⟩ := search_match _ _ _ _ hfind
    rcases eitherWord_cases hname with rfl | rfl <;> decide
  | eval _ hreason | debugger _ hreason | trailing hreason =>
    rcases hreason with rfl | rfl <;> decide
  | _ => decide

theorem Lint.told_findings {on : Switches} {source : List Char} {f : Finding}
    (h : f ∈ findings on source) : Rule.ofReason? f.reason = some f.rule := by
  obtain rfl | ⟨b, line, text, hat⟩ := mem_findings h
  · exact ofReason?_strict
  · exact hat.noticed.told

theorem Hint.told_findings {on : Switches} {source : List Char} {f : Finding}
    (h : f ∈ findings on source) : Rule.ofReason? f.reason = some f.rule := by
  obtain rfl | ⟨b, line, text, hat⟩ := mem_findings h
  · exact ofReason?_strict
  · exact hat.noticed.told

end Reasons

section Sites

/-- What a finding says apart from its reason. -/
abbrev Site := Rule × Nat × Nat × List Char

def Finding.site (f : Finding) : Site := (f.rule, f.line, f.column, f.evidence)

/-- The places of the findings of some rules. -/
def sites (keep : Rule → Bool) (fs : List Finding) : List Site :=
  (fs.filter fun f => keep f.rule).map Finding.site

theorem sites_append (keep : Rule → Bool) (fs gs : List Finding) :
    sites keep (fs ++ gs) = sites keep fs ++ sites keep gs := by
  rw [sites, List.filter_append, List.map_append]
  rfl

/-- The place that one rule finds on a line. -/
def siteOf (keep : Rule → Bool) (active : Bool) (rule : Rule) (line : Nat) (text : List Char)
    (column? : Option Nat) : List Site :=
  if keep rule && active then column?.toList.map fun column => (rule, line, column, text) else []

theorem siteOf_left {keep : Rule → Bool} {rule : Rule} (h : keep rule = false) (active : Bool)
    (line : Nat) (text : List Char) (column? : Option Nat) :
    siteOf keep active rule line text column? = [] := by
  rw [siteOf, h]
  rfl

theorem sites_ite (keep : Rule → Bool) (active : Bool) (f : Finding) :
    sites keep (if active then [f] else []) =
      siteOf keep active f.rule f.line f.evidence (some f.column) := by
  cases hkeep : keep f.rule <;> cases active <;> simp [sites, siteOf, Finding.site, hkeep]

variable {mask : Bool → List Char → Masked} {keep keep' : Rule → Bool}
  {check check' : Nat → List Char → Masked → List Finding}

/-- Checks that find the same on every line find the same in every text. -/
theorem walk_sites
    (hcheck : ∀ b line text,
      sites keep (check line text (mask b text)) = sites keep' (check' line text (mask b text)))
    (texts : List (List Char)) : ∀ (b : Bool) (line : Nat),
      sites keep (walk mask check b line texts) = sites keep' (walk mask check' b line texts) := by
  induction texts with
  | nil => intro b line; rfl
  | cons text texts ih =>
    intro b line
    rw [walk, walk, sites_append, sites_append, hcheck, ih]

end Sites

/-- The rules that both editions know. -/
def sharedRules : List Rule := [.strict, .eqeqeq, .evil, .plusplus, .debug, .white, .semicolon]

/-- What either edition finds on a line by the shared rules. -/
def sharedSites (on : Switches) (line : Nat) (text : List Char) (m : Masked) : List Site :=
  if m.code = [] then []
  else
    let site := siteOf fun _ => true
    site (on .eqeqeq) .eqeqeq line text ((find looseEquality m.code).map Prod.fst)
      ++ site (!on .evil) .evil line text ((find evalCall m.code).map Prod.fst)
      ++ site (on .plusplus) .plusplus line text ((find increment m.code).map Prod.fst)
      ++ site (!on .debug) .debug line text ((find (word "debugger") m.code).map Prod.fst)
      ++ site (on .white && endsInSpace text) .white line text (some (width m.code))
      ++ site (!m.inComment && lacksSemicolon m.code) .semicolon line text (some (width m.code))

namespace Lint

theorem sites_report {α : Type} (keep : Rule → Bool) (active : Bool) (rule : Rule) (line : Nat)
    (text : List Char) (found : Option (Nat × α)) (reason : α → String) :
    sites keep (report active rule line text found reason) =
      siteOf keep active rule line text (found.map Prod.fst) := by
  cases found with
  | none => cases active <;> simp [report, siteOf, sites]
  | some found =>
    obtain ⟨column, a⟩ := found
    have hite : report active rule line text (some (column, a)) reason =
        if active then [⟨rule, line, column, reason a, text⟩] else [] := by
      cases active <;> rfl
    rw [hite, sites_ite]
    rfl

theorem sites_lineFindings (on : Switches) (line : Nat) (text : List Char) (m : Masked) :
    sites (· != .nomen) (lineFindings on line text m) = sharedSites on line text m := by
  rw [lineFindings, looseEither_eq, sharedSites]
  split
  · rfl
  · have hnomen := @siteOf_left (· != .nomen) .nomen rfl
    simp only [sites_append, sites_report, hnomen, List.append_nil]
    rfl

end Lint

namespace Hint

theorem sites_apply (keep : Rule → Bool) (r : LineRule) (on : Switches) (line : Nat)
    (text code : List Char) :
    sites keep (r.apply on line text code) =
      siteOf keep (r.active on) r.rule line text ((r.check code).map Prod.fst) := by
  rw [LineRule.apply]
  cases r.check code with
  | none => cases r.active on <;> simp [siteOf, sites]
  | some found => exact sites_ite keep _ _

theorem found_column {α : Type} (p : Matcher α) (reason : α → String) (code : List Char) :
    (found p reason code).map Prod.fst = (find p code).map Prod.fst := by
  rw [found]
  cases find p code <;> rfl

theorem sites_left {keep : Rule → Bool} {rs : List LineRule} (h : ∀ r ∈ rs, keep r.rule = false)
    (on : Switches) (line : Nat) (text code : List Char) :
    sites keep (rs.flatMap (·.apply on line text code)) = [] := by
  induction rs with
  | nil => rfl
  | cons r rs ih =>
    obtain ⟨hr, hrs⟩ := List.forall_mem_cons.1 h
    rw [List.flatMap_cons, sites_append, sites_apply, siteOf_left hr, ih hrs]
    rfl

/-- Of the table, the shared rules are the first four. -/
theorem sites_rules (on : Switches) (line : Nat) (text code : List Char) :
    sites sharedRules.contains (rules.flatMap (·.apply on line text code)) =
      sites sharedRules.contains ((rules.take 4).flatMap (·.apply on line text code)) := by
  have hleft : ∀ r ∈ rules.drop 4, sharedRules.contains r.rule = false := by decide
  rw [← List.take_append_drop 4 rules, List.flatMap_append, sites_append, sites_left hleft,
    List.append_nil]
  rfl

theorem sites_lineFindings {on : Switches} (hasi : on .asi = false) (line : Nat) (text : List Char)
    (m : Masked) :
    sites sharedRules.contains (lineFindings on line text m) = sharedSites on line text m := by
  rw [lineFindings, sharedSites]
  split
  · rfl
  · rw [sites_append, sites_append, sites_rules, sites_ite, sites_ite, hasi, Bool.not_false,
      Bool.true_and]
    simp only [rules, List.take_succ_cons, List.take_zero, List.flatMap_cons, List.flatMap_nil,
      sites_append, sites_apply, found_column]
    simp [siteOf, sharedRules, sites]

end Hint

/-- On the rules that both editions know they agree: the findings of the strict edition, apart from
names with dangling underscores, are at the places of those of the lenient edition, in the same
order. -/
theorem findings_agree {on : Switches} (hasi : on .asi = false) (source : List Char) :
    sites (· != .nomen) (Lint.findings on source) =
      sites sharedRules.contains (Hint.findings on source) := by
  have hmask : Hint.mask = Lint.mask := funext fun b => funext fun line => Hint.mask_eq b line
  rw [Lint.findings, Hint.findings, sites_append, sites_append, Lint.scan, Hint.scan, hmask]
  congr 1
  · rw [Lint.strictFindings]
    split <;> rfl
  · refine walk_sites ?_ (lines source) false 0
    intro b line text
    rw [Lint.sites_lineFindings, Hint.sites_lineFindings hasi]

end ScriptLint.Analysis

namespace ScriptLint

open Text Engine Analysis

/-- The list of findings that a script of the library leaves for options and a text. -/
def Reports (v : Variant) (path : Path) (options : List (String × Value)) (text : String)
    (fs : List Finding) : Prop :=
  evaluate (bundledScript v path) options text = .ok (Datum.arr (fs.map findingRecord)).stringify

theorem reports_trail {v : Variant} {path : Path} {options : List (String × Value)} {text : String}
    {o : Options} {source : List Char} {fs : List Finding}
    (hhand : handOver options text = .ok (o, source))
    (htrail : bundledTrail v o.switches source = fs.map some) : Reports v path options text fs := by
  have hrecords : trailRecords (bundledTrail v o.switches source) =
      .arr (fs.map findingRecord) := by
    rw [htrail, trailRecords, List.map_map]
    rfl
  refine evaluate_arr (bundled_program v path) hhand ?_
  rw [hrecords]

/-- The two scripts of the library agree on the rules that both know: apart from names with dangling
underscores, the strict script finds what the lenient one finds by the shared rules, at the same
places and in the same order. The options may hold any values without special numbers, as long as
neither `passfail` nor `asi` counts as true for the scripts; a text counts up to its first NUL. The
rule of a finding is the one that its reason tells of. Where an option is not written, neither script
is called. -/
theorem editions_agree (path path' : Path) (options : List (String × Value)) (text : String)
    (hfinite : ∀ e ∈ options, e.2.isFinite = true)
    (hoff : ∀ o source, handOver options text = .ok (o, source) →
      o.isOn "passfail" = false ∧ o.isOn "asi" = false) :
    ((∀ e ∈ options, e.2.isWritable = true) →
      ∃ strict lenient : List Finding,
        Reports .jslint path options text strict ∧ Reports .jshint path' options text lenient ∧
        (∀ f ∈ strict ++ lenient, Rule.ofReason? f.reason = some f.rule) ∧
        (strict.filter (·.rule != .nomen)).map Finding.site =
          (lenient.filter fun f => sharedRules.contains f.rule).map Finding.site) ∧
    ((∃ e ∈ options, e.2.isWritable = false) →
      evaluate (bundledScript .jslint path) options text = .error .unwritable ∧
      evaluate (bundledScript .jshint path') options text = .error .unwritable) := by
  constructor
  · intro hwritten
    obtain ⟨o, hhand⟩ := handOver_untilNul (allWritable_iff.2 hwritten) hfinite text
    obtain ⟨hpassfail, hasi⟩ := hoff o _ hhand
    have htrail : bundledTrail .jslint o.switches (untilNul text.toList) =
        (Lint.findings o.switches (untilNul text.toList)).map some := by
      rw [bundledTrail, Lint.trail, show o.switches .passfail = false from hpassfail]
      rfl
    refine ⟨_, _, reports_trail hhand htrail, reports_trail hhand rfl, ?_, findings_agree hasi _⟩
    intro f hf
    rcases List.mem_append.1 hf with hf | hf
    · exact Lint.told_findings hf
    · exact Hint.told_findings hf
  · intro h
    have hunwritten := allWritable_eq_false_iff.2 h
    exact ⟨evaluate_unwritten (bundled_program .jslint path) hunwritten,
      evaluate_unwritten (bundled_program .jshint path') hunwritten⟩

def looseOptions : List (String × Value) := [("passfail", .bool false), ("eqeqeq", .bool true)]

theorem editions_agree_loose :
    ∃ strict lenient : List Finding,
      Reports .jslint (Path.parse "jslint.js") looseOptions "a == b\n_c" strict ∧
      Reports .jshint (Path.parse "jshint.js") looseOptions "a == b\n_c" lenient ∧
      (strict.filter (·.rule != .nomen)).map Finding.site =
        (lenient.filter fun f => sharedRules.contains f.rule).map Finding.site := by
  have hhand : handOver looseOptions "a == b\n_c" =
      .ok (⟨[("passfail", .bool false), ("eqeqeq", .bool true)], []⟩, "a == b\n_c".toList) := by
    have hbool : ∀ b, Datum.parse (Value.bool b).toJson.encode = .ok (.bool b) := by
      intro b
      rw [parse_encode]
      rfl
    have hpairs : Mapping.ofPairs looseOptions = looseOptions := rfl
    have hwritten : allWritable looseOptions = true := by decide
    rw [handOver_eq, if_pos hwritten, hpairs]
    simp only [looseOptions, assignValues, hbool]
    rfl
  have hoff : ∀ o source, handOver looseOptions "a == b\n_c" = .ok (o, source) →
      o.isOn "passfail" = false ∧ o.isOn "asi" = false := by
    intro o source h
    rw [hhand] at h
    cases h
    decide
  obtain ⟨strict, lenient, hstrict, hlenient, _, hsites⟩ :=
    (editions_agree (Path.parse "jslint.js") (Path.parse "jshint.js") looseOptions "a == b\n_c"
      (by simp [looseOptions, Value.isFinite]) hoff).1 (by decide)
  exact ⟨strict, lenient, hstrict, hlenient, hsites⟩

end ScriptLint
