import ScriptLint.Proofs.Consulted
import ScriptLint.Proofs.Editions
import ScriptLint.Proofs.Scanner

/-!
# ScriptLint.Proofs.Tokens

Columns point at what a reason names. Rules look at the masked line, but the column of a finding is
one of the line as it is written, and what the reason names stands there, in one piece.

* `HoldsAt`: what stands at a column of a line
* `holdsAt_of_mask`: what a masked line shows without spaces stands in the line, at the same column
* `Names`: what a reason names
* `holdsAt_find`: what a pattern starts with stands where it is found
* `Points`: a finding that has what its reason names at its column
* `columns_point`: the diagnostics of the scripts of the library
-/

namespace ScriptLint.Analysis

open ScriptLint.Text

section Shown

/-- Characters that stand in a line from some column on. -/
def HoldsAt (k : Nat) (token cs : List Char) : Prop :=
  ∃ before behind, cs = before ++ token ++ behind ∧ width before = k

/-- Some characters, and no space among them. -/
def Solid (token : List Char) : Prop := token ≠ [] ∧ ' ' ∉ token

instance (token : List Char) : Decidable (Solid token) := inferInstanceAs (Decidable (_ ∧ _))

theorem shown_ne_nil (m : Char × Bool) : ScannedLine.shown m ≠ [] := by
  obtain ⟨c, kept⟩ := m
  cases kept with
  | true => exact List.cons_ne_nil c []
  | false =>
    intro h
    have hunits := congrArg List.length h
    have hpos := units_pos c
    rw [ScannedLine.shown, if_neg Bool.false_ne_true, blanks, List.length_replicate] at hunits
    simp only [List.length_nil] at hunits
    omega

/-- Whatever is shown but spaces is the character itself. -/
theorem shown_of_mem {m : Char × Bool} {c : Char} (h : c ∈ ScannedLine.shown m) (hc : c ≠ ' ') :
    m.1 = c ∧ ScannedLine.shown m = [c] := by
  obtain ⟨d, kept⟩ := m
  cases kept with
  | true =>
    cases List.mem_singleton.1 h
    exact ⟨rfl, rfl⟩
  | false => exact absurd (List.eq_of_mem_replicate h) hc

/-- A character that is no space is shown in its place: what is shown in front of it is of the marks
in front, and what is shown behind it of those behind. -/
theorem shown_split {c : Char} (hc : c ≠ ' ') {before behind : List Char}
    {ms : List (Char × Bool)} (h : ms.flatMap ScannedLine.shown = before ++ c :: behind) :
    ∃ front back : List (Char × Bool),
      ms.map Prod.fst = front.map Prod.fst ++ c :: back.map Prod.fst ∧
      front.flatMap ScannedLine.shown = before ∧ back.flatMap ScannedLine.shown = behind := by
  induction ms generalizing before with
  | nil => cases before <;> cases h
  | cons m ms ih =>
    rw [List.flatMap_cons, List.append_eq_append_iff] at h
    obtain ⟨before', rfl, hrest⟩ | ⟨inside, hshown, hrest⟩ := h
    · obtain ⟨front, back, hms, rfl, hback⟩ := ih hrest
      refine ⟨m :: front, back, ?_, rfl, hback⟩
      rw [List.map_cons, hms]
      rfl
    · cases inside with
      | nil =>
        have hrest' : ms.flatMap ScannedLine.shown = [] ++ c :: behind := hrest.symm
        obtain ⟨front, back, hms, hfront, hback⟩ := ih hrest'
        refine ⟨m :: front, back, ?_, ?_, hback⟩
        · rw [List.map_cons, hms]
          rfl
        · rw [List.flatMap_cons, hfront, hshown, List.append_nil, List.append_nil]
      | cons d inside =>
        obtain ⟨rfl, hbehind⟩ := List.cons.inj hrest
        have hmem : c ∈ ScannedLine.shown m := by
          rw [hshown]
          exact List.mem_append_right _ List.mem_cons_self
        obtain ⟨hfst, hsingle⟩ := shown_of_mem hmem hc
        rw [hsingle] at hshown
        obtain ⟨rfl, hinside⟩ := List.append_eq_singleton_iff.1 hshown.symm |>.resolve_right
          (fun h => nomatch h.2)
        cases hinside
        exact ⟨[], ms, by rw [List.map_cons, hfst]; rfl, rfl, hbehind.symm⟩

/-- Characters shown side by side, with no space among them, stand side by side. -/
theorem shown_token {token behind : List Char} (htoken : ' ' ∉ token) :
    ∀ {ms : List (Char × Bool)}, ms.flatMap ScannedLine.shown = token ++ behind →
      token <+: ms.map Prod.fst := by
  induction token with
  | nil => exact fun _ => List.nil_prefix
  | cons c token ih =>
    intro ms h
    rw [List.mem_cons, not_or] at htoken
    have h' : ms.flatMap ScannedLine.shown = [] ++ c :: (token ++ behind) := h
    obtain ⟨front, back, hms, hfront, hback⟩ := shown_split (Ne.symm htoken.1) h'
    have hnil : front = [] := by
      cases front with
      | nil => rfl
      | cons m front => exact absurd (List.append_eq_nil_iff.1 hfront).1 (shown_ne_nil m)
    rw [hms, hnil]
    exact List.cons_prefix_cons.2 ⟨rfl, ih htoken.2 hback⟩

/-- What a masked line shows stands in the line, at the same column. -/
theorem holdsAt_of_mask {inComment : Bool} {line token : List Char} {k : Nat}
    (h : HoldsAt k token (Lint.mask inComment line).code) (htoken : Solid token) :
    HoldsAt k token line := by
  obtain ⟨before, behind, hcode, rfl⟩ := h
  obtain ⟨hne, hspace⟩ := htoken
  obtain ⟨c, token', rfl⟩ := List.exists_cons_of_ne_nil hne
  rw [List.mem_cons, not_or] at hspace
  obtain ⟨tail, hrendered, _⟩ := trimEnd_append_dropped isBlank
    (scanLine (.atStart inComment) line).rendered.code
  have hshown : (scanLine (.atStart inComment) line).marks.flatMap ScannedLine.shown =
      before ++ c :: (token' ++ (behind ++ tail)) := by
    rw [mask_eq_scanLine] at hcode
    calc (scanLine (.atStart inComment) line).marks.flatMap ScannedLine.shown
        = (scanLine (.atStart inComment) line).masked.code ++ tail := hrendered
      _ = before ++ c :: (token' ++ (behind ++ tail)) := by
        rw [hcode, List.append_assoc, List.append_assoc, List.cons_append]
  obtain ⟨front, back, hms, hfront, hback⟩ := shown_split (Ne.symm hspace.1) hshown
  obtain ⟨rest, hrest⟩ := shown_token hspace.2 hback
  have htext : line = front.map Prod.fst ++ c :: back.map Prod.fst := by
    rw [← hms]
    exact (text_scanLine (.atStart inComment) line).symm
  refine ⟨front.map Prod.fst, rest, ?_, ?_⟩
  · rw [htext, ← hrest, List.append_assoc, List.cons_append]
  · rw [← width_flatMap_shown, hfront]

end Shown

section Names

/-- What a reason of a rule names. -/
inductive Names : Rule → String → List Char → Prop
  | loose {op : List Char} (h : op = ['=', '='] ∨ op = ['!', '=']) :
    Names .eqeqeq
      ("Expected " ++ Lint.quote (op ++ ['=']) ++ " and instead saw " ++ Lint.quote op ++ ".") op
  | eval {reason : String} : Names .evil reason "eval".toList
  | increment {lead : String} {op : List Char} (hlead : lead = "Unexpected " ∨
      lead = "Unexpected use of ") (hop : op = ['+', '+'] ∨ op = ['-', '-']) :
    Names .plusplus (lead ++ Lint.quote op ++ ".") op
  | debugger {reason : String} : Names .debug reason "debugger".toList
  | dangling {name : List Char} (hchars : ∀ c ∈ name, isNameChar c = true)
      (hunderscore : name.head? = some '_' ∨ name.getLast? = some '_') :
    Names .nomen ("Unexpected dangling '_' in " ++ Lint.quote name ++ ".") name
  | developer {name : String} (h : name = "console" ∨ name = "alert") :
    Names .devel (Lint.quote name.toList ++ " is not defined.") name.toList
  | caller {reason : String} : Names .noarg reason "arguments.".toList
  | empty {reason : String} : Names .noempty reason "\x7b".toList

theorem Names.solid {rule : Rule} {reason : String} {token : List Char}
    (h : Names rule reason token) : Solid token := by
  cases h with
  | loose h => rcases h with rfl | rfl <;> decide
  | increment _ hop => rcases hop with rfl | rfl <;> decide
  | developer h => rcases h with rfl | rfl <;> decide
  | dangling hchars hunderscore =>
    constructor
    · rintro rfl
      rcases hunderscore with h | h <;> cases h
    · intro hmem
      exact absurd (hchars ' ' hmem) (by decide)
  | _ => decide

theorem after?_eq : ∀ {w cs rest : List Char}, after? w cs = some rest → cs = w ++ rest := by
  intro w cs
  fun_induction after? w cs with
  | case1 cs => exact fun h => Option.some.inj h
  | case2 => nofun
  | case3 w cs c ih =>
    intro rest h
    rw [ih h]
    rfl
  | case4 => nofun

theorem keyword?_eq {w : String} {prev : Option Char} {cs rest : List Char}
    (h : keyword? w prev cs = some rest) : cs = w.toList ++ rest := by
  rw [keyword?] at h
  split at h
  · cases h
  · exact after?_eq h

theorem word_starts {w found : String} {prev : Option Char} {cs : List Char}
    (h : word w prev cs = some found) : w.toList <+: cs := by
  unfold word at h
  split at h
  · cases h
  · rename_i rest hrest
    exact ⟨rest, (keyword?_eq hrest).symm⟩

/-- A name goes on as far as its dangling underscore. -/
theorem danglingTail_starts (cs : List Char) : ∀ {prev : Char} {tail : List Char},
    danglingTail prev cs = some tail → tail <+: cs ∧ tail.getLast? = some '_' := by
  induction cs with
  | nil => nofun
  | cons c cs ih =>
    intro prev tail h
    rw [danglingTail] at h
    split at h
    · split at h
      · rename_i rest hrest
        cases h
        obtain ⟨hstart, hlast⟩ := ih hrest
        refine ⟨List.cons_prefix_cons.2 ⟨rfl, hstart⟩, ?_⟩
        rw [List.getLast?_cons, hlast]
        rfl
      · split at h
        · rename_i hc
          cases h
          refine ⟨List.cons_prefix_cons.2 ⟨rfl, List.nil_prefix⟩, ?_⟩
          rw [hc.1]
          rfl
        · cases h
    · cases h

theorem danglingName_starts {prev : Option Char} {cs name : List Char}
    (h : danglingName prev cs = some name) :
    name <+: cs ∧ (name.head? = some '_' ∨ name.getLast? = some '_') := by
  unfold danglingName at h
  split at h
  · cases h
  · rename_i c cs
    split at h
    · split at h
      · rename_i hc
        cases h
        exact ⟨List.cons_prefix_cons.2 ⟨rfl, List.takeWhile_prefix _⟩, .inl (by rw [hc]; rfl)⟩
      · split at h
        · obtain ⟨tail, htail, rfl⟩ := Option.map_eq_some_iff.1 h
          obtain ⟨hstart, hlast⟩ := danglingTail_starts cs htail
          refine ⟨List.cons_prefix_cons.2 ⟨rfl, hstart⟩, .inr ?_⟩
          rw [List.getLast?_cons, hlast]
          rfl
        · cases h
    · cases h

theorem looseEquality_starts {prev : Option Char} {cs op : List Char}
    (h : looseEquality prev cs = some op) : op <+: cs := by
  unfold looseEquality at h
  split at h
  · split at h
    · cases h
    · cases h
      exact ⟨_, rfl⟩
  · cases h

theorem increment_starts {prev : Option Char} {cs op : List Char}
    (h : increment prev cs = some op) : op <+: cs := by
  unfold increment at h
  split at h
  · cases h
    exact ⟨_, rfl⟩
  · cases h
    exact ⟨_, rfl⟩
  · cases h

theorem evalCall_starts {prev : Option Char} {cs : List Char} {a : Unit}
    (h : evalCall prev cs = some a) : "eval".toList <+: cs := by
  unfold evalCall at h
  split at h
  · cases h
  · rename_i rest hrest
    exact ⟨rest, (keyword?_eq hrest).symm⟩

theorem eitherWord_starts {v w found : String} {prev : Option Char} {cs : List Char}
    (h : eitherWord v w prev cs = some found) : found.toList <+: cs := by
  rw [eitherWord, Option.or_eq_some_iff] at h
  rcases h with h | ⟨_, h⟩
  · rw [word_self h]
    exact word_starts h
  · rw [word_self h]
    exact word_starts h

theorem argumentsCaller_starts {prev : Option Char} {cs : List Char} {a : Unit}
    (h : argumentsCaller prev cs = some a) : "arguments.".toList <+: cs := by
  unfold argumentsCaller at h
  split at h
  · rename_i rest hrest
    rw [keyword?_eq hrest]
    exact ⟨rest, rfl⟩
  · cases h

theorem emptyBlock_starts {prev : Option Char} {cs : List Char} {a : Unit}
    (h : emptyBlock prev cs = some a) : "\x7b".toList <+: cs := by
  unfold emptyBlock at h
  split at h
  · exact ⟨_, rfl⟩
  · cases h

/-- What a pattern starts with stands where it is found. -/
theorem holdsAt_find {α : Type} {p : Matcher α} {a : α} {token code : List Char} {k : Nat}
    (hstart : ∀ prev cs, p prev cs = some a → token <+: cs) (hfind : find p code = some (k, a)) :
    HoldsAt k token code := by
  obtain ⟨before, rest, hcode, hcolumn, hmatch⟩ := search_split p code none 0 hfind
  obtain ⟨behind, rfl⟩ := hstart _ rest hmatch
  refine ⟨before, behind, ?_, ?_⟩
  · rw [hcode, List.append_assoc]
  · rw [hcolumn, Nat.zero_add]

end Names

section Points

/-- The rules whose findings have what the reason names at their column. -/
def pointingRules : List Rule :=
  [.eqeqeq, .evil, .plusplus, .debug, .nomen, .devel, .noarg, .noempty]

/-- A finding that has, at its column, what its reason names. -/
def Points (f : Finding) : Prop :=
  f.rule ∈ pointingRules → ∃ token, Names f.rule f.reason token ∧ HoldsAt f.column token f.evidence

/-- What is noticed in a masked line is named, and stands there. -/
theorem Noticed.token {m : Masked} {rule : Rule} {column : Nat} {reason : String}
    (h : Noticed m rule column reason) (hrule : rule ∈ pointingRules) :
    ∃ token, Names rule reason token ∧ HoldsAt column token m.code := by
  cases h with
  | loose hfind =>
    obtain ⟨prev, cs, hop⟩ := search_match _ _ _ _ hfind
    exact ⟨_, .loose (looseEquality_cases hop),
      holdsAt_find (fun _ _ => looseEquality_starts) hfind⟩
  | eval hfind => exact ⟨_, .eval, holdsAt_find (fun _ _ => evalCall_starts) hfind⟩
  | increment hfind hlead =>
    obtain ⟨prev, cs, hop⟩ := search_match _ _ _ _ hfind
    exact ⟨_, .increment hlead (increment_cases hop),
      holdsAt_find (fun _ _ => increment_starts) hfind⟩
  | debugger hfind => exact ⟨_, .debugger, holdsAt_find (fun _ _ => word_starts) hfind⟩
  | dangling hfind =>
    obtain ⟨prev, cs, hname⟩ := search_match _ _ _ _ hfind
    exact ⟨_, .dangling (danglingName_chars hname) (danglingName_starts hname).2,
      holdsAt_find (fun _ _ h => (danglingName_starts h).1) hfind⟩
  | developer hfind =>
    obtain ⟨prev, cs, hname⟩ := search_match _ _ _ _ hfind
    exact ⟨_, .developer (eitherWord_cases hname), holdsAt_find (fun _ _ => eitherWord_starts) hfind⟩
  | caller hfind => exact ⟨_, .caller, holdsAt_find (fun _ _ => argumentsCaller_starts) hfind⟩
  | block hfind => exact ⟨_, .empty, holdsAt_find (fun _ _ => emptyBlock_starts) hfind⟩
  | trailing | semicolon | construction | assignment | body => exact absurd hrule (by decide)

theorem NoticedAt.points {line : Nat} {text : List Char} {inComment : Bool} {f : Finding}
    (h : NoticedAt line text (Lint.mask inComment text) f) : Points f := by
  intro hrule
  obtain ⟨token, hnames, hholds⟩ := h.noticed.token hrule
  rw [h.evidence_eq]
  exact ⟨token, hnames, holdsAt_of_mask hholds hnames.solid⟩

/-- The finding on the whole text need not point at anything. -/
theorem points_strict (reason : String) (evidence : List Char) :
    Points ⟨.strict, 0, 0, reason, evidence⟩ := by
  intro hrule
  change Rule.strict ∈ pointingRules at hrule
  exact absurd hrule (by decide)

theorem Lint.points_findings {on : Switches} {source : List Char} {f : Finding}
    (h : f ∈ findings on source) : Points f := by
  obtain rfl | ⟨b, line, text, hat⟩ := mem_findings h
  · exact points_strict _ _
  · exact hat.points

theorem Hint.points_findings {on : Switches} {source : List Char} {f : Finding}
    (h : f ∈ findings on source) : Points f := by
  obtain rfl | ⟨b, line, text, hat⟩ := mem_findings h
  · exact points_strict _ _
  · rw [mask_eq] at hat
    exact hat.points

end Points

end ScriptLint.Analysis

namespace ScriptLint

open Text Engine Analysis

theorem points_bundledTrail {v : Variant} {on : Switches} {source : List Char} {f : Finding}
    (h : f ∈ (bundledTrail v on source).filterMap id) :
    Rule.ofReason? f.reason = some f.rule ∧ Points f := by
  cases v with
  | jslint =>
    have hmem := (Lint.trail_sublist on source).mem h
    exact ⟨Lint.told_findings hmem, Lint.points_findings hmem⟩
  | jshint =>
    rw [bundledTrail, filterMap_map_some] at h
    exact ⟨Hint.told_findings h, Hint.points_findings h⟩

/-- A diagnostic that tells of one rule and, where that is one of the pointing rules, has what its
reason names in its evidence, from its column on. -/
def TokenShown (d : Diagnostic) : Prop :=
  ∃ rule, Rule.ofReason? d.reason = some rule ∧
    (rule ∈ pointingRules → ∃ token before behind : List Char, Names rule d.reason token ∧
      d.evidence.toList = before ++ token ++ behind ∧ d.character = width before)

theorem tokenShown_ofFinding {v : Variant} {on : Switches} {source : List Char} {f : Finding}
    (h : f ∈ (bundledTrail v on source).filterMap id) : TokenShown (ofFinding f) := by
  obtain ⟨htold, hpoints⟩ := points_bundledTrail h
  refine ⟨f.rule, htold, fun hrule => ?_⟩
  obtain ⟨token, hnames, before, behind, hevidence, hcolumn⟩ := hpoints hrule
  refine ⟨token, before, behind, hnames, ?_, ?_⟩
  · rw [ofFinding, String.toList_ofList, hevidence]
  · rw [ofFinding, hcolumn]

/-- Columns point at what the reason names, counted in UTF-16 code units in the line as it was
written: a loose comparison, a call of `eval`, an increment, a `debugger` statement, a name with a
dangling underscore, a name for development, a caller or an empty block. This goes for all that an
edition finds, with whatever switches in whatever source, and so for every diagnostic of a result of
its script, with whatever options; only that for a result a text has to be narrower than the least
number with too many digits for the reader of records. -/
theorem columns_point (v : Variant) :
    (∀ (on : Switches) (source : List Char), ∀ f ∈ (bundledTrail v on source).filterMap id,
      TokenShown (ofFinding f)) ∧
    ∀ (path : Path) (options : List (String × Value)) (text : String) (limits : Limits)
      (policy : Policy) (result : Result), width text.toList < 10 ^ Digits.limit →
      (runIsolated (bundledScript v path) options text limits policy).1 = .ok result →
      ∀ d ∈ result.diagnostics, TokenShown d := by
  refine ⟨fun _ _ _ hf => tokenShown_ofFinding hf, ?_⟩
  intro path options text limits policy result hwidth hrun d hd
  obtain ⟨o, _, rfl⟩ := result_bundled hwidth hrun
  obtain ⟨f, hf, rfl⟩ := List.mem_map.1 hd
  exact tokenShown_ofFinding hf

theorem columns_point_astral :
    ∃ result, (runIsolated (bundledScript .jshint (Path.parse "jshint.js")) [("eqeqeq", .bool true)]
        "'\\'😀' == eval(x)" Limits.none .fail).1 = .ok result ∧
      (result.diagnostics.map fun d => (d.character, d.reason)) =
        [(7, "Expected '===' and instead saw '=='."), (10, "eval can be harmful."),
          (17, "Missing semicolon.")] ∧
      ∀ d ∈ result.diagnostics, TokenShown d := by
  have hwidth : width "'\\'😀' == eval(x)".toList < 10 ^ Digits.limit :=
    Nat.lt_of_lt_of_le (by decide : _ < 10 ^ 2) (Nat.pow_le_pow_right (by decide) (by decide))
  have hhand : handOver [("eqeqeq", .bool true)] "'\\'😀' == eval(x)" =
      .ok (⟨[("eqeqeq", .bool true)], []⟩, untilNul "'\\'😀' == eval(x)".toList) := by
    have hpairs : Mapping.ofPairs [("eqeqeq", Value.bool true)] = [("eqeqeq", .bool true)] := rfl
    refine handOver_eq_ok_iff.2 ⟨rfl, ?_, rfl⟩
    rw [hpairs]
    simp only [assignValues, parse_bool]
    rfl
  have hrun : (runIsolated (bundledScript .jshint (Path.parse "jshint.js"))
      [("eqeqeq", .bool true)] "'\\'😀' == eval(x)" Limits.none .fail).1 = .ok _ :=
    runIsolated_bundled (by decide) hhand hwidth .fail
  exact ⟨_, hrun, by decide, (columns_point .jshint).2 _ _ _ _ _ _ hwidth hrun⟩

end ScriptLint
