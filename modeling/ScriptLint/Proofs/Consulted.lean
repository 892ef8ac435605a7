import ScriptLint.Proofs.BundledRun
import ScriptLint.Proofs.Histories
import ScriptLint.Proofs.Stores
import ScriptLint.Proofs.Truth

/-!
# ScriptLint.Proofs.Consulted

A report of a script of the library depends on the text and on the truth of the options that its
edition consults, and on nothing else that is stored, as long as everything stored is written.

* `consulted`: the options that an edition looks at
* `bundledTrail_congr`: what an edition leaves behind depends on these only
* `Checker.Made`: the checkers that there are
* `switches_snapshot`: the truth of an option in a snapshot is the truth that the script sees
* `Checker.run_bundled`, `Checker.check_bundled`: a check with a script of the library
* `Checker.check_unwritten`: the same with an option that is not written
* `Checker.HasRoom`: an interpreter whose limits a check does not reach
* `Checker.reports_agree`: two checkers, and one checker before and after a write
-/

namespace ScriptLint

open Text Engine Options Analysis

/-- The options that an edition looks at. -/
def consulted : Variant → List Switch
  | .jslint => [.strict, .eqeqeq, .evil, .plusplus, .debug, .nomen, .white, .passfail]
  | .jshint => [.strict, .eqeqeq, .evil, .plusplus, .debug, .devel, .noarg, .nonew, .boss, .curly,
      .noempty, .white, .asi]

section Editions

variable {on on' : Switches}

/-- Both look at the same options in the same way. -/
def AgreeOn (v : Variant) (on on' : Switches) : Prop := ∀ s ∈ consulted v, on s = on' s

/-- The strict edition finds the same whether or not it is to give up. -/
theorem lint_findings_congr (h : ∀ s ∈ consulted .jslint, s ≠ .passfail → on s = on' s) :
    Lint.findings on = Lint.findings on' := by
  have hline : Lint.lineFindings on = Lint.lineFindings on' := by
    funext line text m
    simp only [Lint.lineFindings, h .eqeqeq (by decide) (by decide),
      h .evil (by decide) (by decide), h .plusplus (by decide) (by decide),
      h .debug (by decide) (by decide), h .nomen (by decide) (by decide),
      h .white (by decide) (by decide)]
  funext source
  simp only [Lint.findings, Lint.strictFindings, Lint.scan, h .strict (by decide) (by decide),
    hline]

theorem lint_trail_congr (h : AgreeOn .jslint on on') : Lint.trail on = Lint.trail on' := by
  have hfindings := lint_findings_congr fun s hs _ => h s hs
  funext source
  simp only [Lint.trail, Lint.firstFinding_eq, hfindings, h .passfail (by decide)]

theorem hint_findings_congr (h : AgreeOn .jshint on on') :
    Hint.findings on = Hint.findings on' := by
  have hactive : ∀ r ∈ Hint.rules, r.active on = r.active on' := by
    simp only [Hint.rules, List.forall_mem_cons, List.not_mem_nil, false_imp_iff, implies_true,
      and_true, h .eqeqeq (by decide), h .evil (by decide), h .plusplus (by decide),
      h .debug (by decide), h .devel (by decide), h .noarg (by decide), h .nonew (by decide),
      h .boss (by decide), h .curly (by decide), h .noempty (by decide)]
  have hrules : ∀ line text code, Hint.rules.flatMap (·.apply on line text code) =
      Hint.rules.flatMap (·.apply on' line text code) := by
    intro line text code
    rw [List.flatMap_def, List.flatMap_def]
    refine congrArg List.flatten (List.map_congr_left ?_)
    intro r hr
    rw [Hint.LineRule.apply, Hint.LineRule.apply, hactive r hr]
  have hline : Hint.lineFindings on = Hint.lineFindings on' := by
    funext line text m
    simp only [Hint.lineFindings, hrules, h .white (by decide), h .asi (by decide)]
  funext source
  simp only [Hint.findings, Hint.scan, h .strict (by decide), hline]

/-- What an edition leaves behind depends on the options that it looks at. -/
theorem bundledTrail_congr {v : Variant} (h : AgreeOn v on on') (source : List Char) :
    bundledTrail v on source = bundledTrail v on' source := by
  cases v with
  | jslint => rw [bundledTrail, bundledTrail, lint_trail_congr h]
  | jshint => rw [bundledTrail, bundledTrail, hint_findings_congr h]

/-- An edition looks at declared options only. -/
theorem consulted_declared {v : Variant} {s : Switch} (h : s ∈ consulted v) :
    s.name ∈ declaredNames v ∧ s.name ≠ Options.prototypeName := by
  have hall : ∀ v, ∀ s ∈ consulted v,
      s.name ∈ declaredNames v ∧ s.name ≠ Options.prototypeName := by
    intro v
    cases v <;> decide
  exact hall v s h

end Editions

section Objects

theorem own_assign_ne {o : Engine.Options} {name other : String} (d : Datum) (h : name ≠ other) :
    Mapping.get? other (o.assign name d).own = Mapping.get? other o.own := by
  unfold Engine.Options.assign
  split
  · split <;> rfl
  · exact Mapping.get?_put_ne d _ h

/-- Options that are assigned under other names leave an option as it is. -/
theorem own_assignValues_ne {name : String} (m : List (String × Value)) :
    ∀ {o o' : Engine.Options}, name ∉ Mapping.keys m → assignValues o m = .ok o' →
      Mapping.get? name o'.own = Mapping.get? name o.own := by
  induction m with
  | nil =>
    intro o o' _ h
    cases h
    rfl
  | cons e m ih =>
    intro o o' hname h
    obtain ⟨n, v⟩ := e
    simp only [Mapping.keys, List.map_cons, List.mem_cons, not_or] at hname
    rw [assignValues] at h
    split at h
    · rw [ih hname.2 h, own_assign_ne _ (Ne.symm hname.1)]
    · cases h

/-- A script sees an option as an object's own, with the value that its text has. -/
theorem own_assignValues {name : String} {v : Value} (hproto : name ≠ Options.prototypeName)
    (m : List (String × Value)) : ∀ {o o' : Engine.Options}, (Mapping.keys m).Nodup →
      (name, v) ∈ m → assignValues o m = .ok o' →
        ∃ d, Datum.parse v.toJson.encode = .ok d ∧ Mapping.get? name o'.own = some d := by
  induction m with
  | nil =>
    intro o o' _ hmem
    cases hmem
  | cons e m ih =>
    intro o o' hnodup hmem h
    obtain ⟨n, w⟩ := e
    simp only [Mapping.keys, List.map_cons, List.nodup_cons] at hnodup
    rw [assignValues] at h
    split at h
    · rename_i d hparse
      rcases List.mem_cons.1 hmem with heq | hmem
      · cases heq
        refine ⟨d, hparse, ?_⟩
        have hassign : (o.assign name d).own = Mapping.put name d o.own := by
          unfold Engine.Options.assign
          rw [if_neg hproto]
        rw [own_assignValues_ne m hnodup.1 h, hassign, Mapping.get?_put_self]
      · exact ih hnodup.2 hmem h
    · cases h

/-- The truth of a stored option. -/
def truth (m : Mapping Value) (s : Switch) : Bool := (Mapping.get? s.name m).any Value.isTrue

/-- The truth that a script sees is the truth of what is stored. -/
theorem switches_snapshot {store : Store} (hshape : store.Shaped)
    (hvalues : ∀ e ∈ store.snapshot, e.2.isOrdinary = true) {text : String} {o : Engine.Options}
    {source : List Char} (hhand : handOver store.snapshot text = .ok (o, source)) :
    AgreeOn store.variant o.switches (truth store.snapshot) := by
  intro s hs
  obtain ⟨hdeclared, hproto⟩ := consulted_declared hs
  obtain ⟨v, hmem⟩ := hshape.exists_mem_snapshot hdeclared
  have hnodup := hshape.nodup_snapshot
  obtain ⟨_, hassign, _⟩ := handOver_eq_ok_iff.1 hhand
  rw [Mapping.ofPairs_nodup hnodup] at hassign
  obtain ⟨d, hparse, hown⟩ := own_assignValues hproto _ hnodup hmem hassign
  obtain ⟨d', hparse', htruthy⟩ := Value.truthy_parse (hvalues _ hmem)
  rw [hparse] at hparse'
  cases hparse'
  simp only [Engine.Options.switches, Engine.Options.isOn, Engine.Options.get?, hown, truth,
    Mapping.get?_of_mem hnodup hmem, Option.some_or, Option.any_some, htruthy]

end Objects

/-- The findings of a script of the library on a text, as a check has them. -/
def bundledDiagnostics (v : Variant) (on : Switches) (text : String) : List Diagnostic :=
  ((bundledTrail v on (untilNul text.toList)).filterMap id).map ofFinding

theorem bundledDiagnostics_congr {v : Variant} {on on' : Switches} (h : AgreeOn v on on')
    (text : String) : bundledDiagnostics v on text = bundledDiagnostics v on' text := by
  rw [bundledDiagnostics, bundledDiagnostics, bundledTrail_congr h]

/-- A finding in a text of that width has a position that can be shown. -/
theorem isShowable_located {source : List Char} {f : Finding} (h : LocatedIn 0 (lines source) f)
    (hwidth : width source + 1 < 10 ^ Digits.limit) : (ofFinding f).isShowable = true := by
  obtain ⟨k, segment, hget, hat⟩ := h
  have hk := (List.getElem?_eq_some_iff.1 hget).1
  have hlines := length_lines_le source
  have hsegment := width_line_le source segment (List.mem_of_getElem? hget)
  have hline := hat.line_eq
  have hcolumn := hat.column_le
  rw [Diagnostic.isShowable, Bool.and_eq_true, Digits.isWritable_iff, Digits.isWritable_iff]
  simp only [ofFinding]
  omega

theorem width_untilNul_le (cs : List Char) : width (untilNul cs) ≤ width cs := by
  have hsplit := congrArg width (List.takeWhile_append_dropWhile (p := (· != '\x00')) (l := cs))
  rw [width_append] at hsplit
  rw [untilNul]
  omega

theorem bundledDiagnostics_showable (v : Variant) (on : Switches) {text : String}
    (hwidth : width text.toList + 1 < 10 ^ Digits.limit) :
    (bundledDiagnostics v on text).all Diagnostic.isShowable = true := by
  have hnarrow := width_untilNul_le text.toList
  rw [List.all_eq_true, bundledDiagnostics]
  refine List.forall_mem_map.2 fun f hf => ?_
  exact isShowable_located (bundledTrail_located v on _ f hf) (by omega)

/-- A run of a script of the library, under either policy. -/
theorem runIsolated_bundled {v : Variant} {path : Path} {options : List (String × Value)}
    {text : String} {o : Engine.Options} {limits : Limits} (hlimits : limits.issue? = none)
    (hhand : handOver options text = .ok (o, untilNul text.toList))
    (hwidth : width text.toList < 10 ^ Digits.limit) (policy : Policy) :
    (runIsolated (bundledScript v path) options text limits policy).1 =
      .ok ⟨v, bundledDiagnostics v o.switches text, 0⟩ := by
  have hnarrow := Nat.lt_of_le_of_lt (width_untilNul_le text.toList) hwidth
  have hlocated := bundledTrail_located v o.switches (untilNul text.toList)
  rw [bundledDiagnostics]
  generalize untilNul text.toList = source at hhand hnarrow hlocated
  have heval : evaluate (bundledScript v path) options text =
      .ok (Datum.arr ((bundledTrail v o.switches source).map trailRecord)).stringify :=
    evaluate_arr (bundled_program v path) hhand rfl
  generalize bundledTrail v o.switches source = trail at heval hlocated
  have hfit : ∀ x ∈ trail.map trailRecord, x.Fits := by
    refine List.forall_mem_map.2 fun f hf => ?_
    cases f with
    | none => trivial
    | some f => exact fits_located (hlocated f (List.mem_filterMap.2 ⟨some f, hf, rfl⟩)) hnarrow
  have hclean : ∀ x ∈ trail.map trailRecord, x.document.isMalformed = false :=
    List.forall_mem_map.2 fun f _ => trailRecord_clean f
  rw [runIsolated_eq hlimits, Context.run_arr rfl rfl heval hfit hclean, diagnostics_trail]
  rfl

/-- A result of a script of the library are its findings with the options that it was called with. -/
theorem result_bundled {v : Variant} {path : Path} {options : List (String × Value)}
    {text : String} {limits : Limits} {policy : Policy} {result : Result}
    (hwidth : width text.toList < 10 ^ Digits.limit)
    (h : (runIsolated (bundledScript v path) options text limits policy).1 = .ok result) :
    ∃ o, handOver options text = .ok (o, untilNul text.toList) ∧
      result = ⟨v, bundledDiagnostics v o.switches text, 0⟩ := by
  obtain ⟨hlimits, _, heval⟩ := evaluate_of_result h
  obtain ⟨o, source, hhand⟩ := handOver_of_evaluate heval
  obtain ⟨_, _, rfl⟩ := handOver_eq_ok_iff.1 hhand
  rw [runIsolated_bundled hlimits hhand hwidth policy] at h
  cases h
  exact ⟨o, hhand, rfl⟩

namespace Checker

/-- The checkers that there are: those that were created, and what becomes of them. -/
inductive Made : Checker → Prop
  | create {w w' : World} {overrides : Mapping Value} {variant : Option Value} {settings : Settings}
    {loader : Option Loader} {c : Checker}
    (h : Checker.create w overrides variant settings loader = (.ok c, w')) : Made c
  | perform {c : Checker} (h : Made c) (w : World) (event : Event) :
    Made (Session.perform ⟨c, w⟩ event).checker

theorem shaped_create {w w' : World} {overrides : Mapping Value} {variant : Option Value}
    {settings : Settings} {loader : Option Loader} {c : Checker}
    (h : Checker.create w overrides variant settings loader = (.ok c, w')) :
    c.store.Shaped ∧ c.store.variant = c.variant := by
  unfold Checker.create at h
  split at h
  · cases h
  · split at h
    · cases h
    · split at h
      · cases h
      · rename_i hstore
        cases h
        exact Store.shaped_create hstore

/-- The store of a checker is that of its edition. -/
theorem Made.shaped {c : Checker} (h : c.Made) : c.store.Shaped ∧ c.store.variant = c.variant := by
  induction h with
  | create h => exact shaped_create h
  | @perform c _ w event ih =>
    obtain ⟨hshaped, hvariant⟩ := ih
    obtain ⟨w', hstep, _⟩ := Session.perform_eq c w event
    rw [hstep]
    cases event with
    | set name value =>
      exact ⟨Store.shaped_set hshaped name value, (Store.variant_set _ _ _).trans hvariant⟩
    | assign name value =>
      exact ⟨Store.shaped_setField hshaped name value,
        (Store.variant_setField _ _ _).trans hvariant⟩
    | _ => exact ⟨hshaped, hvariant⟩

/-- A checker whose checks run a script of the library, in a context that the interpreter can open
and with options that a script can be handed. -/
structure OnBundle (c : Checker) (w : World) : Prop where
  made : c.Made
  runs : ∃ path, c.Runs w (bundledScript c.variant path)
  limits : c.Opens
  values : ∀ e ∈ c.store.snapshot, e.2.isOrdinary = true

/-- All options of a checker are written. -/
def Written (c : Checker) : Prop := ∀ e ∈ c.store.snapshot, e.2.isWritable = true

variable {c c₁ c₂ : Checker} {w w₁ w₂ : World} {text : String}

/-- What a script of the library finds depends on the text and on the truth of options. -/
theorem run_bundled (h : c.OnBundle w) (hwritten : c.Written)
    (hwidth : width text.toList < 10 ^ Digits.limit) :
    (c.run w text).1 =
      .ok ⟨c.variant, bundledDiagnostics c.variant (truth c.store.snapshot) text, 0⟩ := by
  obtain ⟨path, hruns⟩ := h.runs
  obtain ⟨hshaped, hvariant⟩ := h.made.shaped
  obtain ⟨o, hhand⟩ := handOver_untilNul (allWritable_iff.2 hwritten)
    (fun e he => Value.isFinite_of_isOrdinary (h.values e he)) text
  have hagree := switches_snapshot hshaped h.values hhand
  rw [hvariant] at hagree
  rw [run_isolated hruns, runIsolated_bundled h.limits hhand hwidth,
    bundledDiagnostics_congr hagree]

/-- A report of a script of the library is made from the text and the truth of options. -/
theorem check_bundled (h : c.OnBundle w) (hwritten : c.Written)
    (hwidth : width text.toList + 1 < 10 ^ Digits.limit) :
    (c.check w text).1 = .ok (Diagnostic.report?
      (bundledDiagnostics c.variant (truth c.store.snapshot) text)) := by
  rw [check_eq, run_bundled h hwritten (Nat.lt_of_succ_lt hwidth)]
  exact if_pos (bundledDiagnostics_showable _ _ hwidth)

section Unwritten

variable {path : Path} (hruns : c.Runs w (bundledScript c.variant path)) (hopens : c.Opens)
  (hunwritten : ¬ c.Written)

include hruns hopens hunwritten

/-- One option that is not written keeps a script of the library from being called. -/
theorem run_unwritten (text : String) : (c.run w text).1 = .error .unwritable := by
  refine run_withheld hruns hopens ⟨⟨_, bundled_program c.variant path⟩, ?_⟩
  simpa [Written] using hunwritten

theorem check_unwritten (text : String) : (c.check w text).1 = .error .unwritable := by
  rw [check_eq, run_unwritten hruns hopens hunwritten]
  rfl

end Unwritten

section Writes

variable {name : String} {value : Value}

/-- A write of an option that the edition does not declare leaves a checker as it is otherwise. -/
theorem OnBundle.set (h : c.OnBundle w) (name : String) (hvalue : value.isOrdinary = true) :
    (c.set name value).OnBundle w := by
  refine ⟨.perform h.made w (.set name value), ?_, h.limits, ?_⟩
  · obtain ⟨path, hruns⟩ := h.runs
    refine ⟨path, ?_⟩
    cases hruns with
    | pinned hscript => exact .pinned hscript
    | loaded hscript hload => exact .loaded hscript hload
  · intro e he
    rcases h.made.shaped.1.mem_snapshot_set he with rfl | he
    · exact hvalue
    · exact h.values e he

theorem Written.set (h : c.OnBundle w) (hwritten : c.Written) (name : String)
    (hvalue : value.isWritable = true) : (c.set name value).Written := by
  intro e he
  rcases h.made.shaped.1.mem_snapshot_set he with rfl | he
  · exact hvalue
  · exact hwritten e he

theorem not_written_set (h : c.OnBundle w) (name : String) (hvalue : value.isWritable = false) :
    ¬ (c.set name value).Written := by
  have hsnapshot : (c.set name value).store.snapshot = Mapping.put name value c.store.snapshot :=
    h.made.shaped.1.snapshot_set name value
  intro hwritten
  rw [Written, hsnapshot] at hwritten
  have hwritable := hwritten _ (Mapping.mem_of_get? (Mapping.get?_put_self name value _))
  exact Bool.false_ne_true (hvalue.symm.trans hwritable)

theorem truth_set (h : c.OnBundle w) (value : Value)
    (hname : Store.isField c.variant name = false) :
    AgreeOn c.variant (truth (c.set name value).store.snapshot) (truth c.store.snapshot) := by
  intro s hs
  have hne : name ≠ s.name := by
    rintro rfl
    rw [Store.isField_iff.2 (consulted_declared hs).1] at hname
    cases hname
  rw [truth, truth]
  exact congrArg (Option.any Value.isTrue) (h.made.shaped.1.get?_snapshot_set value hne)

end Writes

section Metered

variable {interpret : Limits → Interpreter Id}

/-- An interpreter does not reach the limits that a checker gives it on a text: it does with the
script and the options of the checker what one without limits does. -/
def HasRoom (interpret : Limits → Interpreter Id) (c : Checker) (w : World) (text : String) :
    Prop :=
  ∀ s, c.Runs w s → interpret (.ofSettings c.settings) s c.store.snapshot text =
    unmetered (.ofSettings c.settings) s c.store.snapshot text

/-- A check whose limits are not reached is one without limits. -/
theorem checkOn_eq (h : HasRoom interpret c w text) :
    c.checkOn interpret w text = c.check w text := by
  have hrun : c.runOn interpret w text = c.runOn unmetered w text := by
    obtain ⟨s, hruns⟩ | ⟨hscript, f, hfails⟩ := runs_cases c w
    · obtain ⟨c', w', hpin, hsettings, hstore⟩ := pinScript_runs hruns
      have hisolated := runIsolatedOn_eq (h s hruns) c.settings.policy
      simp only [runOn, hpin, hsettings, hstore, hisolated, runIsolated]
    · simp only [runOn, pinScript_fails hscript hfails]
  simp only [check, checkOn, hrun]

end Metered

/-- Two checkers of one edition, with a script of the library, have the same report on a text if all
their options are written, none of their limits is reached, and every option that the edition looks
at is true for both or for neither; their settings, their scripts' places and all other options do
not matter. A checker with an option that is not written has no report at all. So a write of an
option that the edition does not declare never changes a report, whatever its name and value are,
unless the value is not written: then every check fails. -/
theorem reports_agree {interpret : Limits → Interpreter Id} (h₁ : c₁.OnBundle w₁)
    (h₂ : c₂.OnBundle w₂) (hroom₁ : HasRoom interpret c₁ w₁ text)
    (hroom₂ : HasRoom interpret c₂ w₂ text) (hvariant : c₁.variant = c₂.variant)
    (htruth : ∀ s ∈ consulted c₁.variant, truth c₁.store.snapshot s = truth c₂.store.snapshot s)
    (hwidth : width text.toList + 1 < 10 ^ Digits.limit) :
    (c₁.Written → c₂.Written →
      ∃ report, (c₁.checkOn interpret w₁ text).1 = .ok report ∧
        (c₂.checkOn interpret w₂ text).1 = .ok report) ∧
    (¬ c₁.Written → (c₁.checkOn interpret w₁ text).1 = .error .unwritable) ∧
    ∀ name value, Store.isField c₁.variant name = false → value.isOrdinary = true →
      HasRoom interpret (c₁.set name value) w₁ text →
      (c₁.Written → value.isWritable = true →
        ((c₁.set name value).checkOn interpret w₁ text).1 =
          (c₁.checkOn interpret w₁ text).1) ∧
      (value.isWritable = false →
        ((c₁.set name value).checkOn interpret w₁ text).1 = .error .unwritable) := by
  rw [checkOn_eq hroom₁, checkOn_eq hroom₂]
  refine ⟨fun hwritten₁ hwritten₂ => ?_, fun hunwritten => ?_, ?_⟩
  · refine ⟨_, check_bundled h₁ hwritten₁ hwidth, ?_⟩
    rw [check_bundled h₂ hwritten₂ hwidth, ← hvariant, bundledDiagnostics_congr htruth]
  · obtain ⟨_, hruns⟩ := h₁.runs
    exact check_unwritten hruns h₁.limits hunwritten text
  · intro name value hname hvalue hroom
    have hset := h₁.set name hvalue
    rw [checkOn_eq hroom]
    refine ⟨fun hwritten hwritable => ?_, fun hunwritable => ?_⟩
    · rw [check_bundled h₁ hwritten hwidth,
        check_bundled hset (hwritten.set h₁ name hwritable) hwidth]
      exact congrArg (fun ds => Except.ok (Diagnostic.report? ds))
        (bundledDiagnostics_congr (truth_set h₁ value hname) text)
    · obtain ⟨_, hruns⟩ := hset.runs
      exact check_unwritten hruns hset.limits (not_written_set h₁ name hunwritable) text

/-- What is kept of a script that was read. -/
def keptOf (s : Script) : CachedScript := ⟨s.path, ⟨s.text, s.program⟩, s.digest⟩

theorem loads_keptOf {l : Loader} {v : Variant} {s : Script} (hplace : l.HasPlace w v)
    (hvariant : s.variant = v) (hpath : s.path = l.scriptFile w v)
    (hfile : w.tree.isFile (l.scriptFile w v) = true) (hkept : l.kept? w v = some (keptOf s)) : l.Loads w v s := by
  obtain ⟨variant, path, text, digest, program⟩ := s
  obtain rfl : variant = v := hvariant
  obtain rfl : path = l.scriptFile w variant := hpath
  exact .kept hplace hfile hkept

def bundleFile : Path := ⟨1, ["jshint.js"]⟩

/-- A world in which the lenient script of the library was read before. -/
def bundleWorld : World :=
  ⟨⟨1, []⟩, ⟨1, []⟩, [], ⟨[(bundleFile.parts, .file (.bytes []))]⟩,
    [keptOf (bundledScript .jshint bundleFile)], []⟩

def createdWith (overrides : Mapping Value) : Checker :=
  ⟨.standard, .jshint, ⟨⟨1, []⟩⟩,
    Store.ofProfile .jshint (resolve (defaults .jshint) overrides), none⟩

/-- Options of other values with the same truth, and one that the edition does not declare. -/
def oddOverrides : Mapping Value :=
  [("strict", .int (-1)), ("devel", .str ""), ("curly", .list []),
    ("evil", .float (.finite true 0 0)), ("__proto__", .dict [(.str "asi", .bool true)])]

theorem create_createdWith (w : World) (loader : Option Loader) {overrides : Mapping Value}
    (hloader : loader.getD (Loader.create w none) = ⟨⟨1, []⟩⟩)
    (hstore : (Store.create .jshint overrides).1 = .ok (createdWith overrides).store) :
    ∃ journal, Checker.create w overrides none .standard loader =
      (.ok (createdWith overrides), w.log journal) := by
  obtain ⟨journal, hcreate⟩ : ∃ journal, Store.create .jshint overrides =
      (.ok (createdWith overrides).store, journal) := ⟨_, Prod.ext hstore rfl⟩
  have hedition : editionSettings .standard none = .ok .standard := rfl
  have hvariant : resolveVariant (.str Settings.standard.engine) = .ok .jshint := rfl
  have hdir : Settings.standard.engineDir = none := rfl
  refine ⟨journal, ?_⟩
  simp only [Checker.create, hedition, hvariant, hcreate, hdir, hloader]
  rfl

/-- The checker of these options is on the lenient script where that was read before. -/
theorem onBundle_kept {w : World} {overrides : Mapping Value}
    (hstore : (Store.create .jshint overrides).1 = .ok (createdWith overrides).store)
    (hvalues : ∀ e ∈ (createdWith overrides).store.snapshot, e.2.isOrdinary = true)
    (hplace : (createdWith overrides).loader.HasPlace w .jshint)
    (hpath : (createdWith overrides).loader.scriptFile w .jshint = bundleFile)
    (hfile : w.tree.isFile bundleFile = true)
    (hcache : w.cache = [keptOf (bundledScript .jshint bundleFile)]) :
    (createdWith overrides).OnBundle w := by
  have hmade : (createdWith overrides).Made := by
    obtain ⟨journal, hnew⟩ := create_createdWith w (some ⟨⟨1, []⟩⟩) rfl hstore
    exact .create hnew
  have hkept : (createdWith overrides).loader.kept? w .jshint =
      some (keptOf (bundledScript .jshint bundleFile)) := by
    rw [Loader.kept?, hpath, hcache]
    exact List.find?_cons_of_pos (beq_self_eq_true _)
  rw [← hpath] at hfile
  have hloads := loads_keptOf hplace rfl hpath.symm hfile hkept
  exact ⟨hmade, ⟨bundleFile, .loaded rfl hloads⟩, rfl, hvalues⟩

theorem onBundle_createdWith {overrides : Mapping Value}
    (hstore : (Store.create .jshint overrides).1 = .ok (createdWith overrides).store)
    (hvalues : ∀ e ∈ (createdWith overrides).store.snapshot, e.2.isOrdinary = true) :
    (createdWith overrides).OnBundle bundleWorld :=
  onBundle_kept hstore hvalues rfl rfl rfl rfl

theorem written_createdWith : (createdWith []).Written := by
  unfold Written
  decide

/-- An interpreter that runs out of memory if it is given too little. -/
def frugal (l : Limits) : Interpreter Id :=
  if l.memory.all (65536 ≤ ·) then unmetered l
  else fun s _ _ => pure (.error (.engineFailed s.variant.text "InternalError: out of memory"))

theorem hasRoom_frugal (h : c.settings.memoryLimit.all (65536 ≤ ·) = true) (w : World)
    (text : String) : HasRoom frugal c w text := by
  have hlimits : frugal (.ofSettings c.settings) = unmetered (.ofSettings c.settings) := if_pos h
  intro s _
  rw [hlimits]

theorem width_short : width "a = b".toList + 1 < 10 ^ Digits.limit :=
  Nat.lt_of_lt_of_le (by decide : _ < 10 ^ 1) (Nat.pow_le_pow_right (by decide) (by decide))

theorem reports_agree_odd :
    (∃ report, ((createdWith []).checkOn frugal bundleWorld "a = b").1 = .ok report ∧
      ((createdWith oddOverrides).checkOn frugal bundleWorld "a = b").1 = .ok report) ∧
    (((createdWith []).set "__proto__" (.dict [(.str "asi", .bool true)])).checkOn frugal
      bundleWorld "a = b").1 = ((createdWith []).checkOn frugal bundleWorld "a = b").1 := by
  have h₁ : (createdWith []).OnBundle bundleWorld := onBundle_createdWith rfl (by decide)
  have h₂ : (createdWith oddOverrides).OnBundle bundleWorld := onBundle_createdWith rfl (by decide)
  have hwritten₂ : (createdWith oddOverrides).Written := by
    unfold Written
    decide
  obtain ⟨hreports, _, hunknown⟩ := reports_agree h₁ h₂ (hasRoom_frugal (by decide) _ _)
    (hasRoom_frugal (by decide) _ _) rfl (by decide) width_short
  obtain ⟨hsame, _⟩ := hunknown "__proto__" (.dict [(.str "asi", .bool true)]) (by decide)
    (by decide) (hasRoom_frugal (by decide) _ _)
  exact ⟨hreports written_createdWith hwritten₂, hsame written_createdWith (by decide)⟩

/-- An option that the edition does not declare, and that is not written, changes a report: there is
none any more. -/
theorem reports_overlong :
    (createdWith []).OnBundle bundleWorld ∧ Store.isField .jshint "wide" = false ∧
    (∀ s ∈ consulted .jshint,
      truth ((createdWith []).set "wide" (.int Digits.overlong)).store.snapshot s =
        truth (createdWith []).store.snapshot s) ∧
    (∃ report, ((createdWith []).check bundleWorld "a = b").1 = .ok report) ∧
    (((createdWith []).set "wide" (.int Digits.overlong)).check bundleWorld "a = b").1 =
      .error .unwritable := by
  have h : (createdWith []).OnBundle bundleWorld := onBundle_createdWith rfl (by decide)
  refine ⟨h, rfl, truth_set h _ rfl, ⟨_, check_bundled h written_createdWith width_short⟩, ?_⟩
  have hset : ((createdWith []).set "wide" (.int Digits.overlong)).OnBundle bundleWorld :=
    h.set "wide" rfl
  obtain ⟨_, hruns⟩ := hset.runs
  exact check_unwritten hruns hset.limits (not_written_set h "wide" Digits.isWritable_overlong) _

end Checker

end ScriptLint
