import ScriptLint.Proofs.CharacterRuns
import ScriptLint.Proofs.RuleFindings

/-!
# ScriptLint.Proofs.DanglingNames

Which lines the strict edition reports for a dangling underscore. Names are made of letters, digits,
underscores and dollar signs, but the pattern starts and ends at the bounds of words, which have no
dollar signs. So an underscore beside a dollar sign inside a name is taken for a dangling one; and an
underscore at the end of a name is only seen if there is no other in front of it.

* `Dangles`: a word with an underscore that the pattern sees
* `isSome_danglingTail`, `isSome_find_danglingName`: where the pattern is found
* `Dangling`: a name that starts or ends with an underscore
* `Clear`, `dangles_iff_dangling`: names that are judged by their underscores at start and end
* `underscores_reported`: which lines are reported
* `underscores_misjudged`: a line that is reported for no such name, and one with such a name that is not
-/

namespace ScriptLint.Analysis

open ScriptLint.Text

section Words

/-- A word with an underscore that the pattern sees: the first character, or the last, if the one in
front of it is none. -/
def Dangles (word : List Char) : Prop :=
  word.head? = some '_' ∨ ∃ stem c, word = stem ++ [c, '_'] ∧ c ≠ '_'

theorem isNameChar_word {c : Char} (h : isWordChar c = true) : isNameChar c = true := by
  rw [isNameChar, h]
  rfl

theorem eq_dollar {c : Char} (hname : isNameChar c = true) (hword : isWordChar c = false) :
    c = '$' := by
  rw [isNameChar, hword, Bool.false_or, beq_iff_eq] at hname
  exact hname

/-- A name goes on to a dangling underscore where, behind characters of the name, there is one with a
character in front of it that is none, and with the end of a word behind it. -/
theorem isSome_danglingTail (cs : List Char) : ∀ {prev : Char}, isNameChar prev = true →
    ((danglingTail prev cs).isSome = true ↔ ∃ stem c behind,
      prev :: cs = stem ++ c :: '_' :: behind ∧ (∀ d ∈ stem, isNameChar d = true) ∧
      isNameChar c = true ∧ c ≠ '_' ∧ endsWord behind.head? = false) := by
  induction cs with
  | nil =>
    intro prev _
    constructor
    · nofun
    · rintro ⟨stem, c, behind, hsplit, _⟩
      have hlength := congrArg List.length hsplit
      simp only [List.length_append, List.length_cons, List.length_nil] at hlength
      omega
  | cons d cs ih =>
    intro prev hprev
    rw [danglingTail]
    constructor
    · intro h
      split at h
      · rename_i hd
        split at h
        · rename_i tail htail
          obtain ⟨stem, c, behind, hsplit, hstem, hrest⟩ :=
            (ih hd).1 (Option.isSome_iff_exists.2 ⟨tail, htail⟩)
          exact ⟨prev :: stem, c, behind, by rw [hsplit, List.cons_append],
            List.forall_mem_cons.2 ⟨hprev, hstem⟩, hrest⟩
        · split at h
          · rename_i hhere
            obtain ⟨rfl, hne, _, hend⟩ := hhere
            refine ⟨[], prev, cs, rfl, List.forall_mem_nil _, hprev, hne, ?_⟩
            rwa [Bool.not_eq_true'] at hend
          · cases h
      · cases h
    · rintro ⟨stem, c, behind, hsplit, hstem, hc, hne, hend⟩
      cases stem with
      | nil =>
        obtain ⟨rfl, hcs⟩ := List.cons.inj hsplit
        obtain ⟨rfl, rfl⟩ := List.cons.inj hcs
        rw [if_pos (by decide)]
        split
        · rfl
        · rw [if_pos ⟨rfl, hne, hc, by rw [hend]; rfl⟩]
          rfl
      | cons x stem =>
        obtain ⟨rfl, hcs⟩ := List.cons.inj hsplit
        have hstem' : ∀ d ∈ stem, isNameChar d = true := (List.forall_mem_cons.1 hstem).2
        have hd : isNameChar d = true := by
          cases stem with
          | nil =>
            obtain ⟨rfl, _⟩ := List.cons.inj hcs
            exact hc
          | cons y stem =>
            obtain ⟨rfl, _⟩ := List.cons.inj hcs
            exact hstem' d List.mem_cons_self
        obtain ⟨tail, htail⟩ := Option.isSome_iff_exists.1
          ((ih hd).2 ⟨stem, c, behind, hcs, hstem', hc, hne, hend⟩)
        rw [if_pos hd, htail]
        rfl

/-- A dangling underscore that is seen belongs to a word that dangles. -/
theorem dangles_of_underscore {code stem behind : List Char} {c : Char}
    (hsplit : code = stem ++ c :: '_' :: behind) (hc : c ≠ '_')
    (hend : endsWord behind.head? = false) :
    ∃ before word behind, RunAt isWordChar code before word behind ∧ Dangles word := by
  cases hword : isWordChar c with
  | true =>
    obtain ⟨before, front, rfl, hfront, hstop⟩ := exists_front isWordChar stem
    refine ⟨before, front ++ [c, '_'], behind, ⟨?_, by simp, ?_, hstop, hend⟩, .inr ⟨front, c, rfl, hc⟩⟩
    · rw [hsplit, List.append_assoc, List.append_assoc]
      rfl
    · intro d hd
      rcases List.mem_append.1 hd with hd | hd
      · exact hfront d hd
      · rcases List.mem_cons.1 hd with rfl | hd
        · exact hword
        · rw [List.mem_singleton.1 hd]
          decide
  | false =>
    refine ⟨stem ++ [c], ['_'], behind, ⟨?_, List.cons_ne_nil _ _, ?_, ?_, hend⟩, .inl rfl⟩
    · rw [hsplit, List.append_assoc]
      rfl
    · intro d hd
      rw [List.mem_singleton.1 hd]
      decide
    · rw [List.getLast?_append]
      exact hword

/-- A word starts at one of its characters if there is none in front. -/
theorem atBoundary_word {prev : Option Char} {c : Char} {cs : List Char} (hc : isWordChar c = true) :
    atBoundary prev (c :: cs) = true ↔ prev.any isWordChar = false := by
  have hnext : endsWord (some c) = true := hc
  rw [atBoundary, List.head?_cons, hnext, bne_iff_ne, ne_eq, Bool.not_eq_true]
  rfl

/-- The pattern is found in a line that has a word that dangles. -/
theorem isSome_find_danglingName {code : List Char} :
    (find danglingName code).isSome = true ↔
      ∃ before word behind, RunAt isWordChar code before word behind ∧ Dangles word := by
  rw [isSome_find_iff]
  constructor
  · rintro ⟨before, rest, rfl, h⟩
    cases rest with
    | nil => cases h
    | cons c cs =>
      rw [danglingName] at h
      split at h
      · rename_i hboundary
        split at h
        · -- a word starts here, with an underscore
          rename_i hc
          subst hc
          obtain ⟨back, behind, rfl, hback, hstop⟩ := exists_back isWordChar cs
          have hfront := (atBoundary_word (by decide)).1 hboundary
          exact ⟨before, '_' :: back, behind, ⟨rfl, List.cons_ne_nil _ _,
            List.forall_mem_cons.2 ⟨by decide, hback⟩, hfront, hstop⟩, .inl rfl⟩
        · split at h
          · rename_i hc
            rw [Option.isSome_map] at h
            obtain ⟨stem, d, behind, hsplit, _, _, hne, hend⟩ := (isSome_danglingTail cs hc).1 h
            have hcode : before ++ c :: cs = (before ++ stem) ++ d :: '_' :: behind := by
              rw [hsplit, List.append_assoc]
            exact dangles_of_underscore hcode hne hend
          · cases h
      · cases h
  · rintro ⟨before, word, behind, hrun, hdangles⟩
    refine ⟨before, word ++ behind, hrun.split, ?_⟩
    obtain ⟨c, word, rfl⟩ := List.exists_cons_of_ne_nil hrun.nonempty
    have hc : isWordChar c = true := hrun.chars c List.mem_cons_self
    rw [List.cons_append, danglingName, if_pos ((atBoundary_word hc).2 hrun.front)]
    split
    · rfl
    · rename_i hstart
      have hname : ∀ d ∈ c :: word, isNameChar d = true :=
        fun d hd => isNameChar_word (hrun.chars d hd)
      rw [if_pos (isNameChar_word hc), Option.isSome_map, isSome_danglingTail _ (isNameChar_word hc)]
      rcases hdangles with hhead | ⟨stem, d, hword, hd⟩
      · exact absurd (Option.some.inj hhead) hstart
      · refine ⟨stem, d, behind, ?_, ?_, ?_, hd, hrun.back⟩
        · rw [← List.cons_append, hword, List.append_assoc]
          rfl
        · intro x hx
          exact hname x (hword ▸ List.mem_append_left _ hx)
        · exact hname d (hword ▸ List.mem_append_right _ List.mem_cons_self)

end Words

section Names

/-- A name that starts or ends with an underscore. -/
def Dangling (name : List Char) : Prop := name.head? = some '_' ∨ name.getLast? = some '_'

instance (name : List Char) : Decidable (Dangling name) := inferInstanceAs (Decidable (_ ∨ _))

/-- A name that is judged by its underscores at start and end: if it has none there, it has none
beside a dollar sign either, and if it has one at the end only, it has no second in front of it. -/
structure Clear (name : List Char) : Prop where
  inner : ¬ Dangling name → ¬ ['$', '_'] <:+: name ∧ ¬ ['_', '$'] <:+: name
  ending : name.head? ≠ some '_' → ¬ ['_', '_'] <:+ name

/-- The name around a word. -/
theorem RunAt.name {code before word behind : List Char}
    (h : RunAt isWordChar code before word behind) :
    ∃ before' front back behind', before = before' ++ front ∧ behind = back ++ behind' ∧
      RunAt isNameChar code before' (front ++ (word ++ back)) behind' := by
  obtain ⟨before', front, rfl, hfront, hstart⟩ := exists_front isNameChar before
  obtain ⟨back, behind', rfl, hback, hstop⟩ := exists_back isNameChar behind
  refine ⟨before', front, back, behind', rfl, rfl, ?_, ?_, ?_, hstart, hstop⟩
  · rw [h.split]
    simp only [List.append_assoc]
  · simp [h.nonempty]
  · intro c hc
    rcases List.mem_append.1 hc with hc | hc
    · exact hfront c hc
    · rcases List.mem_append.1 hc with hc | hc
      · exact isNameChar_word (h.chars c hc)
      · exact hback c hc

theorem any_isWordChar {c? : Option Char} (h : c?.any isNameChar = false) :
    c?.any isWordChar = false := by
  cases c? with
  | none => rfl
  | some c =>
    have hc : isNameChar c = false := h
    rw [isNameChar, Bool.or_eq_false_iff] at hc
    exact hc.1

/-- What stands in front of a word in a name is a dollar sign. -/
theorem dollar_in_front {before front : List Char} (hfront : ∀ c ∈ front, isNameChar c = true)
    (hstop : (before ++ front).getLast?.any isWordChar = false) (hne : front ≠ []) :
    ∃ front', front = front' ++ ['$'] := by
  obtain ⟨front', d, rfl⟩ : ∃ front' d, front = front' ++ [d] :=
    ⟨_, _, (List.dropLast_concat_getLast hne).symm⟩
  have hd : isWordChar d = false := by
    rw [← List.append_assoc, List.getLast?_append] at hstop
    exact hstop
  exact ⟨front', by rw [eq_dollar (hfront d (List.mem_append_right _ List.mem_cons_self)) hd]⟩

/-- What stands behind a word in a name is a dollar sign. -/
theorem dollar_behind {back behind : List Char} (hback : ∀ c ∈ back, isNameChar c = true)
    (hstop : (back ++ behind).head?.any isWordChar = false) (hne : back ≠ []) :
    ∃ back', back = '$' :: back' := by
  obtain ⟨d, back', rfl⟩ := List.exists_cons_of_ne_nil hne
  have hd : isWordChar d = false := hstop
  exact ⟨back', by rw [eq_dollar (hback d List.mem_cons_self) hd]⟩

/-- A word that dangles is part of a name that does, or that has an underscore beside a dollar sign. -/
theorem dangling_of_dangles {code before word behind : List Char}
    (h : RunAt isWordChar code before word behind) (hdangles : Dangles word) :
    ∃ before name behind, RunAt isNameChar code before name behind ∧
      (Dangling name ∨ ['$', '_'] <:+: name ∨ ['_', '$'] <:+: name) := by
  obtain ⟨before', front, back, behind', rfl, rfl, hname⟩ := h.name
  refine ⟨before', front ++ (word ++ back), behind', hname, ?_⟩
  rcases hdangles with hhead | ⟨stem, c, rfl, _⟩
  · obtain ⟨w, word, rfl⟩ := List.exists_cons_of_ne_nil h.nonempty
    obtain rfl : w = '_' := Option.some.inj hhead
    by_cases hne : front = []
    · exact .inl (.inl (by rw [hne]; rfl))
    · have hfront : ∀ c ∈ front, isNameChar c = true :=
        fun c hc => hname.chars c (List.mem_append_left _ hc)
      obtain ⟨front', rfl⟩ := dollar_in_front hfront h.front hne
      exact .inr (.inl ⟨front', word ++ back, by simp⟩)
  · by_cases hne : back = []
    · refine .inl (.inr ?_)
      rw [hne, List.append_nil, List.getLast?_append, List.getLast?_append]
      rfl
    · have hback : ∀ c ∈ back, isNameChar c = true := fun c hc =>
        hname.chars c (List.mem_append_right _ (List.mem_append_right _ hc))
      obtain ⟨back', rfl⟩ := dollar_behind hback h.back hne
      exact .inr (.inr ⟨front ++ (stem ++ [c]), back', by simp⟩)

/-- A name that dangles has a word that does, unless it ends with two underscores and does not start
with one. -/
theorem dangles_of_dangling {code before name behind : List Char}
    (h : RunAt isNameChar code before name behind) (hdangling : Dangling name)
    (hending : name.head? ≠ some '_' → ¬ ['_', '_'] <:+ name) :
    ∃ before word behind, RunAt isWordChar code before word behind ∧ Dangles word := by
  by_cases hhead : name.head? = some '_'
  · obtain ⟨c, name, rfl⟩ := List.exists_cons_of_ne_nil h.nonempty
    obtain rfl : c = '_' := Option.some.inj hhead
    obtain ⟨back, behind', hsplit, hback, hstop⟩ := exists_back isWordChar (name ++ behind)
    refine ⟨before, '_' :: back, behind', ⟨?_, List.cons_ne_nil _ _,
      List.forall_mem_cons.2 ⟨by decide, hback⟩, any_isWordChar h.front, hstop⟩, .inl rfl⟩
    rw [h.split, List.cons_append, hsplit]
    rfl
  · obtain ⟨stem, rfl⟩ := List.getLast?_eq_some_iff.1 (hdangling.resolve_left hhead)
    have hne : stem ≠ [] := by
      rintro rfl
      exact hhead rfl
    obtain ⟨stem, c, rfl⟩ : ∃ stem' c, stem = stem' ++ [c] :=
      ⟨_, _, (List.dropLast_concat_getLast hne).symm⟩
    have hc : c ≠ '_' := by
      rintro rfl
      exact hending hhead ⟨stem, by simp⟩
    have hcode : code = (before ++ stem) ++ c :: '_' :: behind := by
      rw [h.split]
      simp only [List.append_assoc, List.cons_append, List.nil_append]
    exact dangles_of_underscore hcode hc (any_isWordChar h.back)

/-- Where all names are clear, there is a word that dangles if there is a name that does. -/
theorem dangles_iff_dangling {code : List Char}
    (hclear : ∀ before name behind, RunAt isNameChar code before name behind → Clear name) :
    (∃ before word behind, RunAt isWordChar code before word behind ∧ Dangles word) ↔
      ∃ before name behind, RunAt isNameChar code before name behind ∧ Dangling name := by
  constructor
  · rintro ⟨before, word, behind, hword, hdangles⟩
    obtain ⟨before', name, behind', hname, hcases⟩ := dangling_of_dangles hword hdangles
    refine ⟨before', name, behind', hname, Decidable.byContradiction fun hnot => ?_⟩
    obtain ⟨hfront, hback⟩ := (hclear _ _ _ hname).inner hnot
    exact (hcases.resolve_left hnot).elim hfront hback
  · rintro ⟨before, name, behind, hname, hdangling⟩
    exact dangles_of_dangling hname hdangling (hclear _ _ _ hname).ending

end Names

section Findings

def danglingReason (name : List Char) : String :=
  "Unexpected dangling '_' in " ++ Lint.quote name ++ "."

/-- By the rule for names, the strict edition finds the pattern. -/
theorem Lint.makes_nomen (on : Switches) : Makes .jslint on .nomen fun _ m =>
    if on .nomen then (find danglingName m.code).map fun e => (e.1, danglingReason e.2) else none := by
  refine makes_of_code (fun text m hnil => ?_) fun line text m hcode => ?_
  · rw [hnil, show find danglingName [] = none from rfl, Option.map_none, ite_self]
  · show ofRule .nomen (lineFindings on line text m) = _
    rw [lineFindings, if_neg hcode]
    simp only [ofRule_append, ofRule_report, reduceCtorEq, and_false, if_false, made_none,
      and_true, List.append_nil, List.nil_append]
    rfl

end Findings

end ScriptLint.Analysis

namespace ScriptLint

open Text Engine Analysis

/-- When the strict edition reports a dangling underscore, with `passfail` off: with `nomen` on, on
every line that has, as it is masked, a word that starts with an underscore, or that ends with one and
not with two. Where names have no underscores beside dollar signs, but for names that start or end
with an underscore, and where those that only end with one do not end with two, these are the lines
that have a name that starts or ends with an underscore. So does the script of the library report. -/
theorem underscores_reported (o : Options) (source : List Char)
    (hpassfail : o.isOn "passfail" = false) :
    ∃ fs : List Finding,
      bundledTrail .jslint o.switches source = fs.map some ∧
      (∀ path options text, handOver options text = .ok (o, source) →
        Reports .jslint path options text fs) ∧
      (∀ f ∈ fs, Rule.ofReason? f.reason = some f.rule) ∧
      ∀ k m, (maskLines (maskOf .jslint) false (lines source))[k]? = some m →
        ((∃ f ∈ fs, f.line = k ∧ f.rule = .nomen) ↔ o.isOn "nomen" = true ∧
          ∃ before word behind, RunAt isWordChar m.code before word behind ∧ Dangles word) ∧
        ((∀ before name behind, RunAt isNameChar m.code before name behind → Clear name) →
          ((∃ f ∈ fs, f.line = k ∧ f.rule = .nomen) ↔ o.isOn "nomen" = true ∧
            ∃ before name behind, RunAt isNameChar m.code before name behind ∧ Dangling name)) := by
  have hmakes := Lint.makes_nomen o.switches
  have htrail : bundledTrail .jslint o.switches source =
      (findingsOf .jslint o.switches source).map some :=
    bundledTrail_findingsOf (fun _ => hpassfail) source
  refine ⟨_, htrail, ?_, fun f hf => told_findingsOf hf, ?_⟩
  · intro path options text hhand
    exact reports_trail hhand htrail
  · intro k m hm
    obtain ⟨text, htext⟩ := exists_line hm
    have hwords : (∃ f ∈ findingsOf .jslint o.switches source, f.line = k ∧ f.rule = .nomen) ↔
        o.isOn "nomen" = true ∧
          ∃ before word behind, RunAt isWordChar m.code before word behind ∧ Dangles word := by
      rw [hmakes.reported_iff (by decide) htext hm, ← isSome_find_danglingName]
      show _ ↔ o.switches .nomen = true ∧ _
      cases o.switches .nomen <;> simp
    exact ⟨hwords, fun hclear => by rw [hwords, dangles_iff_dangling hclear]⟩

theorem underscores_reported_property :
    ∃ fs : List Finding,
      Reports .jslint (Path.parse "jslint.js") (optionsOn .nomen) "a$b(c__d); // _e\na._b = c_;" fs ∧
      ∃ f ∈ fs, f.line = 1 ∧ f.rule = .nomen := by
  obtain ⟨fs, _, hreports, _, hlines⟩ := underscores_reported (objectOn .nomen)
    "a$b(c__d); // _e\na._b = c_;".toList (by decide)
  have hmask : (maskLines (maskOf .jslint) false
      (lines "a$b(c__d); // _e\na._b = c_;".toList))[1]? = some ⟨"a._b = c_;".toList, false⟩ := by decide
  have hclear : ∀ before name behind,
      RunAt isNameChar "a._b = c_;".toList before name behind → Clear name := by
    intro before name behind hname
    have hruns : runs isNameChar "a._b = c_;".toList =
        [['a'], ['_', 'b'], [], [], ['c', '_']] := by decide
    have hmem : name ∈ [['a'], ['_', 'b'], [], [], ['c', '_']] := hruns ▸ hname.mem_runs
    clear hname
    constructor
    · revert name
      decide
    · revert name
      decide
  refine ⟨fs, hreports _ _ _ (handOver_on .nomen _), ((hlines 1 _ hmask).2 hclear).2 ⟨by decide, ?_⟩⟩
  exact ⟨"a.".toList, "_b".toList, " = c_;".toList,
    ⟨rfl, by decide, List.all_eq_true.1 (by decide), by decide, by decide⟩, .inl rfl⟩

/-- A line is reported for a name that neither starts nor ends with an underscore, but has one beside a
dollar sign; and a line with a name that ends with two underscores is not reported. -/
theorem underscores_misjudged :
    handOver (optionsOn .nomen) "a$_b;\na__;" = .ok (objectOn .nomen, "a$_b;\na__;".toList) ∧
    (objectOn .nomen).isOn "nomen" = true ∧ (objectOn .nomen).isOn "passfail" = false ∧
    bundledTrail .jslint (objectOn .nomen).switches "a$_b;\na__;".toList =
      [some ⟨.nomen, 0, 2, danglingReason "_b".toList, "a$_b;".toList⟩] ∧
    maskLines (maskOf .jslint) false (lines "a$_b;\na__;".toList) =
      [⟨"a$_b;".toList, false⟩, ⟨"a__;".toList, false⟩] ∧
    (∀ before name behind, RunAt isNameChar "a$_b;".toList before name behind → ¬ Dangling name) ∧
    ∃ before name behind, RunAt isNameChar "a__;".toList before name behind ∧ Dangling name := by
  refine ⟨handOver_on .nomen _, by decide, by decide, by decide, by decide, ?_, ?_⟩
  · intro before name behind hname
    have hall : ∀ name ∈ runs isNameChar "a$_b;".toList, ¬ Dangling name := by decide
    exact hall name hname.mem_runs
  · exact ⟨[], "a__".toList, [';'],
      ⟨rfl, by decide, List.all_eq_true.1 (by decide), by decide, by decide⟩, .inr rfl⟩

end ScriptLint
