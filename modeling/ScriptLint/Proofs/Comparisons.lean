import ScriptLint.Proofs.RuleFindings

/-!
# ScriptLint.Proofs.Comparisons

Which loose comparisons are found. A `==` or a `!=` is one if neither an `=` nor a `!` stands right in
front of it, and no `=` right behind it. Either edition reports the first that has a character on each
side in the masked line. One at the start of the line, or at its end, is passed over, though nothing
stands there that would make it a strict one.

* `LooseAt`: a loose comparison, and what stands around it
* `InnerAt`: one that has a character on each side
* `looseEquality_iff`, `find_looseEquality`: where the pattern is found
* `makes_eqeqeq`: what either edition finds
* `FirstReported`: a line is reported for the first of some operators
* `comparisons_reported`: which lines are reported, and for which of their comparisons
* `comparison_at_line_end`: a comparison that goes on in the next line is passed over
-/

namespace ScriptLint.Analysis

open ScriptLint.Text

section Operators

/-- A `==` or `!=` with no `=` or `!` right in front of it, and no `=` right behind. -/
structure LooseAt (code before op behind : List Char) : Prop where
  split : code = before ++ (op ++ behind)
  operator : op = ['=', '='] ∨ op = ['!', '=']
  front : ∀ c, before.getLast? = some c → c ≠ '=' ∧ c ≠ '!'
  back : ∀ c, behind.head? = some c → c ≠ '='

/-- One that is neither at the start nor at the end of the line. -/
structure InnerAt (code before op behind : List Char) : Prop extends
    LooseAt code before op behind where
  started : before ≠ []
  ended : behind ≠ []

/-- The pattern is a loose comparison with a character on each side. -/
theorem looseEquality_iff {before rest op : List Char} :
    looseEquality before.getLast? rest = some op ↔
      ∃ behind, rest = op ++ behind ∧ InnerAt (before ++ rest) before op behind := by
  constructor
  · intro h
    have hop := looseEquality_cases h
    unfold looseEquality at h
    split at h
    · rename_i b o c behind hlast
      split at h
      · cases h
      · rename_i hclear
        cases h
        simp only [not_or] at hclear
        refine ⟨c :: behind, rfl, ⟨rfl, hop, ?_, ?_⟩, ?_, List.cons_ne_nil c behind⟩
        · intro d hd
          obtain rfl := Option.some.inj (hlast.symm.trans hd)
          exact hclear.1
        · rintro d hd
          obtain rfl := Option.some.inj hd
          exact hclear.2.2
        · rintro rfl
          cases hlast
    · cases h
  · rintro ⟨behind, rfl, hinner⟩
    obtain ⟨b, hlast⟩ := Option.isSome_iff_exists.1 (List.getLast?_isSome.2 hinner.started)
    obtain ⟨c, behind, rfl⟩ := List.exists_cons_of_ne_nil hinner.ended
    obtain ⟨heq, hnot⟩ := hinner.front b hlast
    have hc : c ≠ '=' := hinner.back c rfl
    rcases hinner.operator with rfl | rfl <;> simp [looseEquality, hlast, heq, hnot, hc]

theorem isSome_find_looseEquality {code : List Char} :
    (find looseEquality code).isSome = true ↔ ∃ before op behind, InnerAt code before op behind := by
  rw [isSome_find_iff]
  constructor
  · rintro ⟨before, rest, rfl, hsome⟩
    obtain ⟨op, hmatch⟩ := Option.isSome_iff_exists.1 hsome
    obtain ⟨behind, _, hinner⟩ := looseEquality_iff.1 hmatch
    exact ⟨before, op, behind, hinner⟩
  · rintro ⟨before, op, behind, hinner⟩
    have hmatch := looseEquality_iff.2 ⟨behind, rfl, hinner.split ▸ hinner⟩
    exact ⟨before, op ++ behind, hinner.split, Option.isSome_iff_exists.2 ⟨op, hmatch⟩⟩

/-- What is found is the first of those that have a character on each side. -/
theorem find_looseEquality {code op : List Char} {k : Nat}
    (h : find looseEquality code = some (k, op)) :
    ∃ before behind, InnerAt code before op behind ∧ k = width before ∧
      ∀ before' op' behind', InnerAt code before' op' behind' → k ≤ width before' := by
  obtain ⟨before, rest, rfl, hk, hmatch⟩ := search_split _ _ _ _ h
  rw [Option.or_none] at hmatch
  obtain ⟨behind, _, hinner⟩ := looseEquality_iff.1 hmatch
  refine ⟨before, behind, hinner, by rw [hk, Nat.zero_add], ?_⟩
  intro before' op' behind' hinner'
  have hmatch' := looseEquality_iff.2 ⟨behind', rfl, hinner'.split ▸ hinner'⟩
  have hle := search_first _ h before' (op' ++ behind') hinner'.split
    (Option.isSome_iff_exists.2 ⟨op', by rw [Option.or_none]; exact hmatch'⟩)
  rwa [Nat.zero_add] at hle

end Operators

section Findings

/-- The reason for which a loose comparison is reported. -/
def looseReason (op : List Char) : String :=
  "Expected " ++ Lint.quote (op ++ ['=']) ++ " and instead saw " ++ Lint.quote op ++ "."

/-- By the rule for comparisons, either edition finds the pattern. -/
theorem makes_eqeqeq (v : Variant) (on : Switches) : Makes v on .eqeqeq fun _ m =>
    if on .eqeqeq then (find looseEquality m.code).map fun e => (e.1, looseReason e.2) else none := by
  cases v with
  | jslint =>
    refine makes_of_code (fun text m hnil => ?_) fun line text m hcode => ?_
    · rw [hnil, show find looseEquality [] = none from rfl, Option.map_none, ite_self]
    · show ofRule .eqeqeq (Lint.lineFindings on line text m) = _
      rw [Lint.lineFindings, looseEither_eq, if_neg hcode]
      simp only [ofRule_append, ofRule_report, reduceCtorEq, and_false, if_false, made_none,
        and_true, List.append_nil]
      rfl
  | jshint =>
    have hrow := Hint.makes_row
      (r := ⟨.eqeqeq, fun on => on .eqeqeq, Hint.found looseEquality looseReason⟩)
      rfl rfl (by decide) (by decide) on
    simpa only [Hint.found_eq_map] using hrow

end Findings

end ScriptLint.Analysis

namespace ScriptLint

open Text Engine Analysis

/-- A line is reported for a comparison if it has an operator of some kind, at the column of the first
of them, with a reason that quotes it. -/
structure FirstReported (fs : List Finding) (k : Nat)
    (kind : List Char → List Char → List Char → Prop) : Prop where
  iff : (∃ f ∈ fs, f.line = k ∧ f.rule = .eqeqeq) ↔ ∃ before op behind, kind before op behind
  first : ∀ f ∈ fs, f.line = k → f.rule = .eqeqeq → ∃ before op behind, kind before op behind ∧
    f.column = width before ∧ f.reason = looseReason op ∧
    ∀ before' op' behind', kind before' op' behind' → f.column ≤ width before'

namespace FirstReported

variable {fs : List Finding} {k : Nat} {kind kind' : List Char → List Char → List Char → Prop}

theorem congr (h : FirstReported fs k kind)
    (hkind : ∀ before op behind, kind before op behind ↔ kind' before op behind) :
    FirstReported fs k kind' := by
  have heq : kind = kind' :=
    funext fun before => funext fun op => funext fun behind => propext (hkind before op behind)
  exact heq ▸ h

end FirstReported

/-- The editions report the first comparison that has a character on each side. -/
theorem firstReported_findingsOf {v : Variant} {on : Switches} {source : List Char}
    (hon : on .eqeqeq = true) {k : Nat} {m : Masked}
    (hm : (maskLines (maskOf v) false (lines source))[k]? = some m) :
    FirstReported (findingsOf v on source) k (InnerAt m.code) := by
  have hmakes := makes_eqeqeq v on
  rw [hon] at hmakes
  constructor
  · obtain ⟨text, htext⟩ := exists_line hm
    rw [hmakes.reported_iff (by decide) htext hm, if_pos rfl, Option.isSome_map]
    exact isSome_find_looseEquality
  · rintro f hf rfl hrule
    obtain ⟨m', _, hm', hnoticed⟩ := hmakes.noticed_of_mem (by decide) hf hrule
    obtain rfl := Option.some.inj (hm.symm.trans hm')
    rw [if_pos rfl] at hnoticed
    obtain ⟨⟨column, op⟩, hfind, heq⟩ := Option.map_eq_some_iff.1 hnoticed
    obtain ⟨hcolumn, hreason⟩ := Prod.mk.inj heq
    obtain ⟨before, behind, hinner, hk, hfirst⟩ := find_looseEquality hfind
    rw [← hcolumn, ← hreason]
    exact ⟨before, op, behind, hinner, hk, rfl, hfirst⟩

/-- Which loose comparisons are reported, with `eqeqeq` on, and for the strict edition `passfail` off.
In every line, as it is masked, it is the first of those that have a character on each side, if there
is one, at its column and with a reason that quotes it. So it is the first loose comparison of all in
a line that neither starts nor ends with one. So do the scripts of the library report. The rule of a
finding is the one that its reason tells of. -/
theorem comparisons_reported (v : Variant) (o : Options) (source : List Char)
    (hon : o.isOn "eqeqeq" = true) (hpassfail : v = .jslint → o.isOn "passfail" = false) :
    ∃ fs : List Finding,
      bundledTrail v o.switches source = fs.map some ∧
      (∀ path options text, handOver options text = .ok (o, source) →
        Reports v path options text fs) ∧
      (∀ f ∈ fs, Rule.ofReason? f.reason = some f.rule) ∧
      ∀ k m, (maskLines (maskOf v) false (lines source))[k]? = some m →
        FirstReported fs k (InnerAt m.code) ∧
        ((∀ before op behind, LooseAt m.code before op behind → before ≠ [] ∧ behind ≠ []) →
          FirstReported fs k (LooseAt m.code)) := by
  have hswitch : o.switches .eqeqeq = true := hon
  have htrail : bundledTrail v o.switches source = (findingsOf v o.switches source).map some :=
    bundledTrail_findingsOf hpassfail source
  refine ⟨_, htrail, ?_, fun f hf => told_findingsOf hf, ?_⟩
  · intro path options text hhand
    exact reports_trail hhand htrail
  · intro k m hm
    have hinner := firstReported_findingsOf hswitch hm
    refine ⟨hinner, fun hinside => hinner.congr fun before op behind => ?_⟩
    constructor
    · exact InnerAt.toLooseAt
    · intro hloose
      exact ⟨hloose, (hinside before op behind hloose).1, (hinside before op behind hloose).2⟩

theorem comparisons_reported_second :
    ∃ fs : List Finding,
      Reports .jslint (Path.parse "jslint.js") (optionsOn .eqeqeq) "a === 'b == c';\nd!=e==f;" fs ∧
      FirstReported fs 1 (LooseAt "d!=e==f;".toList) := by
  obtain ⟨fs, htrail, hreports, _, hlines⟩ := comparisons_reported .jslint (objectOn .eqeqeq)
    "a === 'b == c';\nd!=e==f;".toList (by decide) (fun _ => by decide)
  have hmask : (maskLines (maskOf .jslint) false (lines "a === 'b == c';\nd!=e==f;".toList))[1]? =
      some ⟨"d!=e==f;".toList, false⟩ := by decide
  refine ⟨fs, hreports _ _ _ (handOver_on .eqeqeq _), (hlines 1 _ hmask).2 ?_⟩
  -- no operator stands at the start or the end of the line
  rintro before op behind ⟨hsplit, hop, _, _⟩
  constructor
  · rintro rfl
    rcases hop with rfl | rfl <;> cases hsplit
  · rintro rfl
    have hlast := congrArg List.getLast? hsplit
    rw [List.append_nil, List.getLast?_append] at hlast
    rcases hop with rfl | rfl <;> cases hlast

/-- A comparison at the end of its line, whose right side stands in the next line, is passed over by
either edition. -/
theorem comparison_at_line_end :
    handOver (optionsOn .eqeqeq) "a ==\nb;" = .ok (objectOn .eqeqeq, "a ==\nb;".toList) ∧
    (objectOn .eqeqeq).isOn "eqeqeq" = true ∧ (objectOn .eqeqeq).isOn "passfail" = false ∧
    ∀ v, ∃ (fs : List Finding) (m : Masked),
      bundledTrail v (objectOn .eqeqeq).switches "a ==\nb;".toList = fs.map some ∧
      (maskLines (maskOf v) false (lines "a ==\nb;".toList))[0]? = some m ∧
      ¬ FirstReported fs 0 (LooseAt m.code) := by
  refine ⟨handOver_on .eqeqeq _, by decide, by decide, fun v => ?_⟩
  refine ⟨[⟨.semicolon, 0, 4, "Missing semicolon.", "a ==".toList⟩], ⟨"a ==".toList, false⟩, ?_, ?_, ?_⟩
  · cases v <;> decide
  · cases v <;> decide
  · intro hfirst
    have hloose : LooseAt "a ==".toList "a ".toList "==".toList [] := by
      refine ⟨rfl, .inl rfl, ?_, nofun⟩
      intro c hc
      obtain rfl : ' ' = c := Option.some.inj hc
      decide
    obtain ⟨f, hf, _, hrule⟩ := hfirst.iff.2 ⟨_, _, _, hloose⟩
    rw [List.mem_singleton.1 hf] at hrule
    cases hrule

end ScriptLint
