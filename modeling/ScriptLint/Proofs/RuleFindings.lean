import ScriptLint.Proofs.RuleSwitches

/-!
# ScriptLint.Proofs.RuleFindings

What an edition finds by one rule. Of a line, as it is written and as it is masked, a rule makes one
finding at most, of what it notices there; and the findings of a text by the rule are those of its
lines.

* `ofRule`: the findings of one rule
* `made`: the finding of what is noticed in a line
* `Makes`: by a rule, an edition finds in a line what is noticed there
* `makes_of_code`: only lines with code count
* `Hint.makes_row`: the rules of the table
* `mem_walk_iff`: the findings of a text, line by line
* `Makes.noticed_of_mem`, `Makes.mem_of_noticed`, `Makes.reported_iff`: the findings of a rule in a
  text
* `optionsOn`: options in which one switch is on
-/

namespace ScriptLint.Analysis

open ScriptLint.Text

section OfRule

/-- The findings of one rule. -/
def ofRule (rule : Rule) (fs : List Finding) : List Finding := fs.filter (·.rule == rule)

theorem mem_ofRule {rule : Rule} {fs : List Finding} {f : Finding} :
    f ∈ ofRule rule fs ↔ f ∈ fs ∧ f.rule = rule := by
  rw [ofRule, List.mem_filter, beq_iff_eq]

theorem ofRule_append (rule : Rule) (fs gs : List Finding) :
    ofRule rule (fs ++ gs) = ofRule rule fs ++ ofRule rule gs := List.filter_append ..

/-- The finding that a rule makes of a line, where it notices something: a column, and a reason. -/
def made (rule : Rule) (line : Nat) (text : List Char) (noticed : Option (Nat × String)) :
    List Finding :=
  noticed.toList.map fun e => ⟨rule, line, e.1, e.2, text⟩

@[simp] theorem made_none (rule : Rule) (line : Nat) (text : List Char) :
    made rule line text none = [] := rfl

theorem mem_made {rule : Rule} {line : Nat} {text : List Char} {noticed : Option (Nat × String)}
    {f : Finding} :
    f ∈ made rule line text noticed ↔
      ∃ column reason, noticed = some (column, reason) ∧ f = ⟨rule, line, column, reason, text⟩ := by
  cases noticed with
  | none => exact ⟨fun h => (nomatch h), fun ⟨_, _, h, _⟩ => (nomatch h)⟩
  | some noticed =>
    obtain ⟨column, reason⟩ := noticed
    constructor
    · intro h
      exact ⟨column, reason, rfl, List.mem_singleton.1 h⟩
    · rintro ⟨_, _, h, rfl⟩
      cases h
      exact List.mem_singleton.2 rfl

variable (rule : Rule) (active : Bool) (line : Nat) (text : List Char)

theorem ofRule_ite (f : Finding) :
    ofRule rule (if active then [f] else []) =
      made rule f.line f.evidence
        (if active ∧ f.rule = rule then some (f.column, f.reason) else none) := by
  cases active with
  | false => rfl
  | true =>
    by_cases h : f.rule = rule
    · subst h
      simp [ofRule, made]
    · simp [ofRule, h]

theorem ofRule_report {α : Type} (r : Rule) (found : Option (Nat × α)) (reason : α → String) :
    ofRule rule (Lint.report active r line text found reason) =
      made rule line text
        (if active ∧ r = rule then found.map fun e => (e.1, reason e.2) else none) := by
  cases found with
  | none => cases active <;> simp [Lint.report, ofRule]
  | some found =>
    have hite : Lint.report active r line text (some found) reason =
        if active then [⟨r, line, found.1, reason found.2, text⟩] else [] := by
      cases active <;> rfl
    rw [hite, ofRule_ite]
    rfl

/-- A row of the table makes its finding of what it notices, if it is active. -/
theorem apply_eq_made (r : Hint.LineRule) (on : Switches) (code : List Char) :
    r.apply on line text code =
      made r.rule line text (if r.active on then r.check code else none) := by
  rw [Hint.LineRule.apply]
  cases r.check code <;> cases r.active on <;> rfl

theorem ofRule_made (r : Rule) (noticed : Option (Nat × String)) :
    ofRule rule (made r line text noticed) = if r == rule then made r line text noticed else [] := by
  cases noticed with
  | none => exact (ite_self _).symm
  | some noticed => cases h : r == rule <;> simp [ofRule, made, h]

/-- The findings of a rule are those of its rows in the table. -/
theorem ofRule_rows (rs : List Hint.LineRule) (on : Switches) (code : List Char) :
    ofRule rule (rs.flatMap (·.apply on line text code)) =
      (rs.filter (·.rule == rule)).flatMap (·.apply on line text code) := by
  induction rs with
  | nil => rfl
  | cons r rs ih =>
    rw [List.flatMap_cons, ofRule_append, ih, apply_eq_made, ofRule_made, List.filter_cons]
    split
    · rw [List.flatMap_cons, apply_eq_made]
    · rfl

end OfRule

section Rules

/-- By a rule, an edition finds in a line what is noticed there. -/
def Makes (v : Variant) (on : Switches) (rule : Rule)
    (noticed : List Char → Masked → Option (Nat × String)) : Prop :=
  ∀ line text m, ofRule rule (checkOf v on line text m) = made rule line text (noticed text m)

/-- In a line without code nothing is found. -/
theorem checkOf_nil (v : Variant) (on : Switches) (line : Nat) (text : List Char) {m : Masked}
    (h : m.code = []) : checkOf v on line text m = [] := by
  cases v with
  | jslint => exact if_pos h
  | jshint => exact if_pos h

/-- What a rule finds is seen in the lines with code. -/
theorem makes_of_code {v : Variant} {on : Switches} {rule : Rule}
    {noticed : List Char → Masked → Option (Nat × String)}
    (hnil : ∀ text m, m.code = [] → noticed text m = none)
    (hcode : ∀ line text m, m.code ≠ [] →
      ofRule rule (checkOf v on line text m) = made rule line text (noticed text m)) :
    Makes v on rule noticed := by
  intro line text m
  by_cases h : m.code = []
  · rw [checkOf_nil v on line text h, hnil text m h]
    rfl
  · exact hcode line text m h

/-- What a rule notices that looks for a pattern. -/
theorem Hint.found_eq_map {α : Type} (p : Matcher α) (reason : α → String) (code : List Char) :
    found p reason code = (find p code).map fun e => (e.1, reason e.2) := by
  rw [found]
  cases find p code <;> rfl

/-- A rule of the table finds what its row says. -/
theorem Hint.makes_row {r : LineRule} (hrow : rules.filter (·.rule == r.rule) = [r])
    (hempty : r.check [] = none) (hwhite : Rule.white ≠ r.rule)
    (hsemicolon : Rule.semicolon ≠ r.rule) (on : Switches) :
    Makes .jshint on r.rule fun _ m => if r.active on then r.check m.code else none := by
  refine makes_of_code (fun text m hnil => ?_) fun line text m hcode => ?_
  · rw [hnil, hempty, ite_self]
  · show ofRule r.rule (lineFindings on line text m) = _
    rw [lineFindings, if_neg hcode, ofRule_append, ofRule_append, ofRule_rows, hrow, ofRule_ite,
      ofRule_ite, if_neg fun h => hwhite h.2, if_neg fun h => hsemicolon h.2, List.flatMap_singleton,
      apply_eq_made, made_none, List.append_nil, List.append_nil]

end Rules

section Texts

theorem length_maskLines (mask : Bool → List Char → Masked) (texts : List (List Char)) :
    ∀ inComment : Bool, (maskLines mask inComment texts).length = texts.length := by
  induction texts with
  | nil => intro inComment; rfl
  | cons text texts ih =>
    intro inComment
    rw [maskLines, List.length_cons, List.length_cons, ih]

/-- A finding of a text is one of a line of it, as it is written and as it is masked. -/
theorem mem_walk_iff {mask : Bool → List Char → Masked}
    {check : Nat → List Char → Masked → List Finding} {inComment : Bool} {f : Finding}
    {texts : List (List Char)} :
    f ∈ walk mask check inComment 0 texts ↔
      ∃ (k : Nat) (text : List Char) (m : Masked), texts[k]? = some text ∧
        (maskLines mask inComment texts)[k]? = some m ∧ f ∈ check k text m := by
  rw [walk_eq_maskLines, List.mem_flatMap]
  constructor
  · rintro ⟨⟨⟨text, m⟩, k⟩, he, hf⟩
    obtain ⟨htext, hm⟩ := List.getElem?_zip_eq_some.1 (List.mem_zipIdx_iff_getElem?.1 he)
    exact ⟨k, text, m, htext, hm, hf⟩
  · rintro ⟨k, text, m, htext, hm, hf⟩
    have hzip : (texts.zip (maskLines mask inComment texts))[k]? = some (text, m) :=
      List.getElem?_zip_eq_some.2 ⟨htext, hm⟩
    exact ⟨((text, m), k), List.mem_zipIdx_iff_getElem?.2 hzip, hf⟩

theorem exists_line {mask : Bool → List Char → Masked} {inComment : Bool}
    {texts : List (List Char)} {k : Nat} {m : Masked}
    (hm : (maskLines mask inComment texts)[k]? = some m) : ∃ text, texts[k]? = some text := by
  have hk := (List.getElem?_eq_some_iff.1 hm).1
  rw [length_maskLines] at hk
  exact ⟨_, List.getElem?_eq_getElem hk⟩

/-- What an edition leaves behind are findings of the text. -/
theorem mem_findingsOf {v : Variant} {on : Switches} {source : List Char} {f : Finding}
    (h : some f ∈ bundledTrail v on source) : f ∈ findingsOf v on source := by
  have hmem : f ∈ (bundledTrail v on source).filterMap id := List.mem_filterMap.2 ⟨some f, h, rfl⟩
  cases v with
  | jslint => exact (Lint.trail_sublist on source).mem hmem
  | jshint => rwa [bundledTrail, filterMap_map_some] at hmem

namespace Makes

variable {v : Variant} {on : Switches} {rule : Rule}
  {noticed : List Char → Masked → Option (Nat × String)} {source : List Char}

/-- A finding of a rule is made of what is noticed in its line. -/
theorem noticed_of_mem (h : Makes v on rule noticed) (hstrict : rule ≠ .strict) {f : Finding}
    (hf : f ∈ findingsOf v on source) (hrule : f.rule = rule) :
    ∃ m, (lines source)[f.line]? = some f.evidence ∧
      (maskLines (maskOf v) false (lines source))[f.line]? = some m ∧
      noticed f.evidence m = some (f.column, f.reason) := by
  rw [findingsOf_eq] at hf
  rcases List.mem_append.1 hf with hf | hf
  · rw [List.mem_singleton.1 (List.mem_ite_nil_right.1 hf).2] at hrule
    exact absurd hrule.symm hstrict
  · obtain ⟨k, text, m, htext, hm, hf⟩ := mem_walk_iff.1 hf
    have hmade := mem_ofRule.2 ⟨hf, hrule⟩
    rw [h] at hmade
    obtain ⟨column, reason, hnoticed, rfl⟩ := mem_made.1 hmade
    exact ⟨m, htext, hm, hnoticed⟩

/-- What is noticed in a line is found. -/
theorem mem_of_noticed (h : Makes v on rule noticed) {k : Nat} {text : List Char} {m : Masked}
    (htext : (lines source)[k]? = some text)
    (hm : (maskLines (maskOf v) false (lines source))[k]? = some m) {column : Nat}
    {reason : String} (hnoticed : noticed text m = some (column, reason)) :
    ⟨rule, k, column, reason, text⟩ ∈ findingsOf v on source := by
  have hmade : ⟨rule, k, column, reason, text⟩ ∈ ofRule rule (checkOf v on k text m) := by
    rw [h]
    exact mem_made.2 ⟨column, reason, hnoticed, rfl⟩
  rw [findingsOf_eq]
  exact List.mem_append_right _ (mem_walk_iff.2 ⟨k, text, m, htext, hm, (mem_ofRule.1 hmade).1⟩)

/-- A rule finds something in a line where something is noticed there. -/
theorem reported_iff (h : Makes v on rule noticed) (hstrict : rule ≠ .strict) {k : Nat}
    {text : List Char} {m : Masked} (htext : (lines source)[k]? = some text)
    (hm : (maskLines (maskOf v) false (lines source))[k]? = some m) :
    (∃ f ∈ findingsOf v on source, f.line = k ∧ f.rule = rule) ↔
      (noticed text m).isSome = true := by
  constructor
  · rintro ⟨f, hf, rfl, hrule⟩
    obtain ⟨m', htext', hm', hnoticed⟩ := h.noticed_of_mem hstrict hf hrule
    obtain rfl := Option.some.inj (htext.symm.trans htext')
    obtain rfl := Option.some.inj (hm.symm.trans hm')
    rw [hnoticed]
    rfl
  · intro hsome
    obtain ⟨⟨column, reason⟩, hnoticed⟩ := Option.isSome_iff_exists.1 hsome
    exact ⟨_, h.mem_of_noticed htext hm hnoticed, rfl, rfl⟩

end Makes

end Texts

end ScriptLint.Analysis

namespace ScriptLint

open Text Engine Analysis

/-- Options in which one switch is on. -/
def optionsOn (s : Switch) : List (String × Value) := [(s.name, .bool true)]

def objectOn (s : Switch) : Options := ⟨[(s.name, .bool true)], []⟩

theorem handOver_on (s : Switch) (text : String) :
    handOver (optionsOn s) text = .ok (objectOn s, untilNul text.toList) := by
  have hproto : Options.prototypeName ∉ [s.name] := by cases s <;> decide
  exact handOver_flags [(s.name, true)] (List.pairwise_singleton _ s.name) hproto text

end ScriptLint
