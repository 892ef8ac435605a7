import ScriptLint.Analysis.Hint
import ScriptLint.Analysis.Lint
import ScriptLint.Proofs.Columns

/-!
# ScriptLint.Proofs.Findings

Every finding of either edition lies in the text it was made for: its line is one of the text's, its
evidence is that line as it was written, its column is inside it, and its reason is a line of
printable characters. Findings come in the order of their lines.

* `FindingAt`: a finding on a given line
* `Noticed`: what a rule of either edition notices in a masked line
* `walk_located`, `walk_sorted`: from the check of one line to all lines of a text
* `Lint.findings_located`, `Hint.findings_located`: the findings of the two editions
-/

namespace ScriptLint.Analysis

open ScriptLint.Text

section Reasons

/-- Characters of printable ASCII; none of them ends a line. -/
def Printable (cs : List Char) : Prop := ∀ c ∈ cs, 0x20 ≤ c.toNat ∧ c.toNat ≤ 0x7E

instance (cs : List Char) : Decidable (Printable cs) :=
  List.decidableBAll (fun c : Char => 0x20 ≤ c.toNat ∧ c.toNat ≤ 0x7E) cs

theorem Printable.append {xs ys : List Char} (hx : Printable xs) (hy : Printable ys) :
    Printable (xs ++ ys) := by
  intro c hc
  rcases List.mem_append.1 hc with hc | hc
  · exact hx c hc
  · exact hy c hc

theorem Printable.cons {c : Char} {cs : List Char} (hc : 0x20 ≤ c.toNat ∧ c.toNat ≤ 0x7E)
    (h : Printable cs) : Printable (c :: cs) := by
  intro x hx
  rcases List.mem_cons.1 hx with rfl | hx
  · exact hc
  · exact h x hx

/-- A reason that is there and stays on its line. -/
def ReasonOk (s : String) : Prop := s.toList ≠ [] ∧ Printable s.toList

instance (s : String) : Decidable (ReasonOk s) :=
  inferInstanceAs (Decidable (_ ∧ _))

theorem ReasonOk.append {s t : String} (hs : ReasonOk s) (ht : Printable t.toList) :
    ReasonOk (s ++ t) := by
  rw [ReasonOk, String.toList_append]
  exact ⟨fun h => hs.1 (List.append_eq_nil_iff.1 h).1, hs.2.append ht⟩

theorem printable_quote {cs : List Char} (h : Printable cs) : Printable (Lint.quote cs).toList := by
  have hq : Printable ['\''] := by decide
  have htext : (Lint.quote cs).toList = ['\''] ++ cs ++ ['\''] := by
    simp only [Lint.quote, String.toList_append, String.toList_ofList]
    rfl
  rw [htext]
  exact (hq.append h).append hq

theorem isNameChar_printable {c : Char} (h : isNameChar c = true) :
    0x20 ≤ c.toNat ∧ c.toNat ≤ 0x7E := by
  have hranges : isNameChar c =
      (((decide (65 ≤ c.val ∧ c.val ≤ 90) ||
        (decide (97 ≤ c.val) && decide (c.val ≤ 122))) ||
        (decide (48 ≤ c.val) && decide (c.val ≤ 57)) || c == '_') || c == '$') := rfl
  simp only [hranges, Bool.or_eq_true, Bool.and_eq_true, decide_eq_true_eq, beq_iff_eq,
    UInt32.le_iff_toNat_le] at h
  change ((((65 ≤ c.toNat ∧ c.toNat ≤ 90) ∨ (97 ≤ c.toNat ∧ c.toNat ≤ 122)) ∨
    (48 ≤ c.toNat ∧ c.toNat ≤ 57)) ∨ c = '_') ∨ c = '$' at h
  rcases h with (((h | h) | h) | rfl) | rfl
  · omega
  · omega
  · omega
  · decide
  · decide

theorem printable_names {cs : List Char} (h : ∀ c ∈ cs, isNameChar c = true) : Printable cs :=
  fun c hc => isNameChar_printable (h c hc)

/-- Both spellings of the pattern accept the same. -/
theorem looseEither_eq : looseEither = looseEquality := by
  funext prev cs
  rw [looseEither]
  fun_cases looseEquality prev cs with
  | case1 b o c rest hrefused =>
    simp only [looseSign]
    rw [if_neg, if_neg]
    · rfl
    · rintro ⟨hequal, hnot, rfl, hc⟩
      simp [hequal, hnot, hc] at hrefused
    · rintro ⟨hequal, hnot, rfl, hc⟩
      simp [hequal, hnot, hc] at hrefused
  | case2 b o c rest htaken =>
    obtain ⟨hprev, hrest⟩ := not_or.1 htaken
    obtain ⟨hop, hc⟩ := not_or.1 hrest
    obtain ⟨hequal, hnot⟩ := not_or.1 hprev
    rcases Decidable.not_not.1 hop with rfl | rfl
    · simp [looseSign, hequal, hnot, hc]
    · simp [looseSign, hequal, hnot, hc]
  | case3 prev cs hother =>
    have hnone : ∀ sign, looseSign sign prev cs = none := by
      intro sign
      unfold looseSign
      split
      · exact absurd rfl (hother _ _ _ _ rfl)
      · rfl
    rw [hnone, hnone]
    rfl

theorem looseEquality_cases {prev : Option Char} {cs op : List Char}
    (h : looseEquality prev cs = some op) : op = ['=', '='] ∨ op = ['!', '='] := by
  unfold looseEquality at h
  split at h
  · split at h
    · cases h
    · rename_i o _ _ hop
      cases h
      have ho : o = '=' ∨ o = '!' := by
        by_cases ho : o = '=' ∨ o = '!'
        · exact ho
        · exact absurd (.inr (.inl ho)) hop
      rcases ho with rfl | rfl
      · exact .inl rfl
      · exact .inr rfl
  · cases h

theorem increment_cases {prev : Option Char} {cs op : List Char}
    (h : increment prev cs = some op) : op = ['+', '+'] ∨ op = ['-', '-'] := by
  unfold increment at h
  split at h
  · cases h; exact .inl rfl
  · cases h; exact .inr rfl
  · cases h

theorem looseEquality_operator {prev : Option Char} {cs op : List Char}
    (h : looseEquality prev cs = some op) : Printable op := by
  rcases looseEquality_cases h with rfl | rfl <;> decide

theorem increment_operator {prev : Option Char} {cs op : List Char}
    (h : increment prev cs = some op) : Printable op := by
  rcases increment_cases h with rfl | rfl <;> decide

theorem danglingTail_names (cs : List Char) : ∀ (prev : Char) {tail : List Char},
    danglingTail prev cs = some tail → ∀ c ∈ tail, isNameChar c = true := by
  induction cs with
  | nil =>
    intro prev tail h
    cases h
  | cons c cs ih =>
    intro prev tail h
    rw [danglingTail] at h
    split at h
    · rename_i hc
      split at h
      · rename_i rest hrest
        cases h
        intro x hx
        rcases List.mem_cons.1 hx with rfl | hx
        · exact hc
        · exact ih c hrest x hx
      · split at h
        · cases h
          intro x hx
          rw [List.mem_singleton.1 hx]
          exact hc
        · cases h
    · cases h

theorem danglingName_chars {prev : Option Char} {cs name : List Char}
    (h : danglingName prev cs = some name) : ∀ c ∈ name, isNameChar c = true := by
  unfold danglingName at h
  split at h
  · cases h
  · rename_i c cs
    split at h
    · split at h
      · rename_i hc
        cases h
        intro x hx
        rcases List.mem_cons.1 hx with rfl | hx
        · rw [hc]; decide
        · exact mem_takeWhile hx
      · split at h
        · rename_i hc
          obtain ⟨tail, htail, rfl⟩ := Option.map_eq_some_iff.1 h
          intro x hx
          rcases List.mem_cons.1 hx with rfl | hx
          · exact hc
          · exact danglingTail_names cs c htail x hx
        · cases h
    · cases h

theorem danglingName_name {prev : Option Char} {cs name : List Char}
    (h : danglingName prev cs = some name) : Printable name :=
  printable_names (danglingName_chars h)

theorem bareBody_name (cs : List Char) : ∀ {name : List Char}, bareBody cs = some name →
    Printable name := by
  induction cs with
  | nil =>
    intro name h
    cases h
  | cons c cs ih =>
    intro name h
    rw [bareBody] at h
    split at h
    · cases h
    · split at h
      · rename_i found hfound
        cases h
        exact ih hfound
      · split at h
        · cases h
          exact printable_names fun x hx => mem_takeWhile hx
        · cases h

theorem bodyWithoutBlock_name {prev : Option Char} {cs name : List Char}
    (h : bodyWithoutBlock prev cs = some name) : Printable name := by
  unfold bodyWithoutBlock at h
  split at h
  · exact bareBody_name _ h
  · cases h

theorem word_self {w : String} {prev : Option Char} {cs : List Char} {found : String}
    (h : word w prev cs = some found) : found = w := by
  unfold word at h
  split at h
  · cases h
  · split at h
    · cases h
    · cases h
      rfl

theorem eitherWord_cases {v w : String} {prev : Option Char} {cs : List Char} {found : String}
    (h : eitherWord v w prev cs = some found) : found = v ∨ found = w := by
  rw [eitherWord, Option.or_eq_some_iff] at h
  rcases h with h | ⟨_, h⟩
  · exact .inl (word_self h)
  · exact .inr (word_self h)

end Reasons

section Lines

/-- A finding on the line `text`, which has the number `line`. -/
structure FindingAt (line : Nat) (text : List Char) (f : Finding) : Prop where
  line_eq : f.line = line
  evidence_eq : f.evidence = text
  column_le : f.column ≤ width text
  reason_ok : ReasonOk f.reason

/-- A finding on one of the lines numbered from `first` on. -/
def LocatedIn (first : Nat) (texts : List (List Char)) (f : Finding) : Prop :=
  ∃ k text, texts[k]? = some text ∧ FindingAt (first + k) text f

theorem LocatedIn.cons {first : Nat} {text : List Char} {texts : List (List Char)} {f : Finding}
    (h : LocatedIn (first + 1) texts f) : LocatedIn first (text :: texts) f := by
  obtain ⟨k, text', hget, hat⟩ := h
  refine ⟨k + 1, text', hget, ?_⟩
  rwa [Nat.add_assoc, Nat.add_comm 1 k] at hat

theorem FindingAt.located {line : Nat} {text : List Char} {texts : List (List Char)} {f : Finding}
    (h : FindingAt line text f) : LocatedIn line (text :: texts) f := ⟨0, text, rfl, h⟩

variable {mask : Bool → List Char → Masked} {check : Nat → List Char → Masked → List Finding}

theorem walk_located
    (hcheck : ∀ b line text, ∀ f ∈ check line text (mask b text), FindingAt line text f)
    (texts : List (List Char)) : ∀ (b : Bool) (line : Nat), ∀ f ∈ walk mask check b line texts,
      LocatedIn line texts f := by
  induction texts with
  | nil =>
    intro b line f hf
    cases hf
  | cons text texts ih =>
    intro b line f hf
    rw [walk] at hf
    rcases List.mem_append.1 hf with hf | hf
    · exact (hcheck b line text f hf).located
    · exact (ih _ (line + 1) f hf).cons

theorem LocatedIn.line_ge {first : Nat} {texts : List (List Char)} {f : Finding}
    (h : LocatedIn first texts f) : first ≤ f.line := by
  obtain ⟨k, _, _, hat⟩ := h
  rw [hat.line_eq]
  omega

/-- The findings of one line come before those of the lines behind it. -/
theorem walk_sorted
    (hcheck : ∀ b line text, ∀ f ∈ check line text (mask b text), FindingAt line text f)
    (texts : List (List Char)) : ∀ (b : Bool) (line : Nat),
      (walk mask check b line texts).Pairwise fun f g => f.line ≤ g.line := by
  induction texts with
  | nil =>
    intro b line
    exact List.Pairwise.nil
  | cons text texts ih =>
    intro b line
    have hlines := hcheck b line text
    rw [walk, List.pairwise_append]
    refine ⟨List.pairwise_of_forall_mem_list ?_, ih _ _, ?_⟩
    · intro f hf g hg
      exact Nat.le_of_eq ((hlines f hf).line_eq.trans (hlines g hg).line_eq.symm)
    · intro f hf g hg
      have := (walk_located hcheck texts _ _ g hg).line_ge
      rw [(hlines f hf).line_eq]
      omega

theorem mem_walk {f : Finding} (texts : List (List Char)) :
    ∀ {b : Bool} {line : Nat}, f ∈ walk mask check b line texts →
      ∃ b line text, f ∈ check line text (mask b text) := by
  induction texts with
  | nil => intro b line h; cases h
  | cons text texts ih =>
    intro b line h
    rw [walk] at h
    rcases List.mem_append.1 h with h | h
    · exact ⟨b, line, text, h⟩
    · exact ih h

end Lines

section Noticed

/-- What a rule notices in a masked line: the column, and the reason that is given. Where the two
editions word a reason differently, either may be given. -/
inductive Noticed (m : Masked) : Rule → Nat → String → Prop
  | loose {column : Nat} {op : List Char} (hfind : find looseEquality m.code = some (column, op)) :
    Noticed m .eqeqeq column
      ("Expected " ++ Lint.quote (op ++ ['=']) ++ " and instead saw " ++ Lint.quote op ++ ".")
  | eval {column : Nat} {reason : String} (hfind : find evalCall m.code = some (column, ()))
    (hreason : reason = "eval is evil." ∨ reason = "eval can be harmful.") :
    Noticed m .evil column reason
  | increment {column : Nat} {op : List Char} {lead : String}
    (hfind : find increment m.code = some (column, op))
    (hlead : lead = "Unexpected " ∨ lead = "Unexpected use of ") :
    Noticed m .plusplus column (lead ++ Lint.quote op ++ ".")
  | debugger {column : Nat} {found reason : String}
    (hfind : find (word "debugger") m.code = some (column, found))
    (hreason : reason = "Unexpected 'debugger'." ∨ reason = "Forgotten 'debugger' statement?") :
    Noticed m .debug column reason
  | dangling {column : Nat} {name : List Char}
    (hfind : find danglingName m.code = some (column, name)) :
    Noticed m .nomen column ("Unexpected dangling '_' in " ++ Lint.quote name ++ ".")
  | trailing {reason : String}
    (hreason : reason = "Unexpected trailing space." ∨ reason = "Trailing whitespace.") :
    Noticed m .white (width m.code) reason
  | semicolon : Noticed m .semicolon (width m.code) "Missing semicolon."
  | developer {column : Nat} {name : String}
    (hfind : find (eitherWord "console" "alert") m.code = some (column, name)) :
    Noticed m .devel column (Lint.quote name.toList ++ " is not defined.")
  | caller {column : Nat} (hfind : find argumentsCaller m.code = some (column, ())) :
    Noticed m .noarg column "Avoid arguments.callee."
  | construction : Noticed m .nonew 0 "Do not use 'new' for side effects."
  | assignment {column : Nat} (hfind : find assignsInCondition m.code = some (column, ())) :
    Noticed m .boss column "Expected a conditional expression and instead saw an assignment."
  | body {column : Nat} {name : List Char}
    (hfind : find bodyWithoutBlock m.code = some (column, name)) :
    -- the column is that of the last occurrence of the name, not that of the match
    Noticed m .curly ((lastColumn name 0 m.code).getD 0)
      ("Expected '\x7b' and instead saw " ++ Lint.quote name ++ ".")
  | block {column : Nat} (hfind : find emptyBlock m.code = some (column, ())) :
    Noticed m .noempty column "Empty block."

namespace Noticed

variable {m : Masked} {rule : Rule} {column : Nat} {reason : String}

theorem column_le (h : Noticed m rule column reason) : column ≤ width m.code := by
  cases h with
  | trailing | semicolon => exact Nat.le_refl _
  | construction => exact Nat.zero_le _
  | body => exact lastColumn_getD_le _ m.code
  | loose hfind | eval hfind | increment hfind | debugger hfind | dangling hfind | developer hfind
  | caller hfind | assignment hfind | block hfind => exact find_column_le hfind

theorem reason_ok (h : Noticed m rule column reason) : ReasonOk reason := by
  cases h with
  | loose hfind =>
    obtain ⟨prev, cs, hop⟩ := search_match _ _ _ _ hfind
    have hop' := looseEquality_operator hop
    have hd : ReasonOk "Expected " := by decide
    exact ((hd.append (printable_quote (hop'.append (by decide)))).append (by decide)).append
      (printable_quote hop') |>.append (by decide)
  | increment hfind hlead =>
    obtain ⟨prev, cs, hop⟩ := search_match _ _ _ _ hfind
    have hd : ∀ lead, lead = "Unexpected " ∨ lead = "Unexpected use of " → ReasonOk lead := by
      rintro lead (rfl | rfl) <;> decide
    exact ((hd _ hlead).append (printable_quote (increment_operator hop))).append (by decide)
  | dangling hfind =>
    obtain ⟨prev, cs, hname⟩ := search_match _ _ _ _ hfind
    have hd : ReasonOk "Unexpected dangling '_' in " := by decide
    exact (hd.append (printable_quote (danglingName_name hname))).append (by decide)
  | developer hfind =>
    obtain ⟨prev, cs, hname⟩ := search_match _ _ _ _ hfind
    rcases eitherWord_cases hname with rfl | rfl <;> decide
  | body hfind =>
    obtain ⟨prev, cs, hname⟩ := search_match _ _ _ _ hfind
    have hd : ReasonOk "Expected '\x7b' and instead saw " := by decide
    exact (hd.append (printable_quote (bodyWithoutBlock_name hname))).append (by decide)
  | eval _ hreason | debugger _ hreason | trailing hreason =>
    rcases hreason with rfl | rfl <;> decide
  | _ => decide

end Noticed

/-- A finding that a rule makes of the line `text`, which is masked to `m`. -/
structure NoticedAt (line : Nat) (text : List Char) (m : Masked) (f : Finding) : Prop where
  line_eq : f.line = line
  evidence_eq : f.evidence = text
  noticed : Noticed m f.rule f.column f.reason

theorem NoticedAt.findingAt {line : Nat} {text : List Char} {m : Masked} {f : Finding}
    (h : NoticedAt line text m f) (hwidth : width m.code ≤ width text) : FindingAt line text f :=
  ⟨h.line_eq, h.evidence_eq, Nat.le_trans h.noticed.column_le hwidth, h.noticed.reason_ok⟩

end Noticed

theorem lines_head (source : List Char) :
    ∃ first rest, lines source = first :: rest ∧ (lines source).headD [] = first := by
  obtain ⟨first, rest, h⟩ := List.exists_cons_of_ne_nil (lines_ne_nil source)
  exact ⟨first, rest, h, by rw [h]; rfl⟩

/-- The finding on the whole text stands at the start of its first line. -/
theorem strict_located (rule : Rule) (source : List Char) :
    LocatedIn 0 (lines source)
      ⟨rule, 0, 0, "Missing \"use strict\" statement.", (lines source).headD []⟩ := by
  obtain ⟨first, rest, hlines, hhead⟩ := lines_head source
  have hreason : ReasonOk "Missing \"use strict\" statement." := by decide
  rw [hlines] at hhead ⊢
  exact ⟨0, first, rfl, rfl, hhead, Nat.zero_le _, hreason⟩

/-- Findings on the whole text, and then those line by line, are in order. -/
theorem sorted_append {fs gs : List Finding} (hfs : ∀ f ∈ fs, f.line = 0)
    (hgs : gs.Pairwise fun f g => f.line ≤ g.line) :
    (fs ++ gs).Pairwise fun f g => f.line ≤ g.line := by
  rw [List.pairwise_append]
  refine ⟨List.pairwise_of_forall_mem_list ?_, hgs, ?_⟩
  · intro f hf g _
    rw [hfs f hf]
    exact Nat.zero_le _
  · intro f hf g _
    rw [hfs f hf]
    exact Nat.zero_le _

theorem filterMap_map_some (fs : List Finding) : (fs.map some).filterMap id = fs := by
  rw [List.filterMap_map]
  exact List.filterMap_some

namespace Lint

theorem mem_report {α : Type} {active : Bool} {rule : Rule} {line : Nat} {evidence : List Char}
    {found : Option (Nat × α)} {reason : α → String} {f : Finding}
    (h : f ∈ report active rule line evidence found reason) :
    ∃ column a, found = some (column, a) ∧ f = ⟨rule, line, column, reason a, evidence⟩ := by
  unfold report at h
  split at h
  · rename_i column a
    exact ⟨column, a, rfl, List.mem_singleton.1 h⟩
  · cases h

variable {line : Nat} {text : List Char} {f : Finding}

theorem noticed_lineFindings {on : Switches} {m : Masked} (h : f ∈ lineFindings on line text m) :
    NoticedAt line text m f := by
  rw [lineFindings, looseEither_eq] at h
  split at h
  · cases h
  · simp only [List.mem_append] at h
    -- one case for each rule, in the order in which they are looked at
    rcases h with (((((h | h) | h) | h) | h) | h) | h <;>
      obtain ⟨column, a, hfound, rfl⟩ := mem_report h
    · exact ⟨rfl, rfl, .loose hfound⟩
    · exact ⟨rfl, rfl, .eval hfound (.inl rfl)⟩
    · exact ⟨rfl, rfl, .increment hfound (.inl rfl)⟩
    · exact ⟨rfl, rfl, .debugger hfound (.inl rfl)⟩
    · exact ⟨rfl, rfl, .dangling hfound⟩
    · cases hfound
      exact ⟨rfl, rfl, .trailing (.inl rfl)⟩
    · cases hfound
      exact ⟨rfl, rfl, .semicolon⟩

theorem lineFindings_at (on : Switches) (b : Bool) (line : Nat) (text : List Char) :
    ∀ f ∈ lineFindings on line text (mask b text), FindingAt line text f :=
  fun _ hf => (noticed_lineFindings hf).findingAt (width_mask_le b text)

theorem mem_strictFindings {on : Switches} {source first : List Char}
    (h : f ∈ strictFindings on source first) :
    f = ⟨.strict, 0, 0, "Missing \"use strict\" statement.", first⟩ := by
  rw [strictFindings] at h
  split at h
  · exact List.mem_singleton.1 h
  · cases h

/-- A finding is that on the whole text, or one that a rule makes of a line. -/
theorem mem_findings {on : Switches} {source : List Char} (h : f ∈ findings on source) :
    f = ⟨.strict, 0, 0, "Missing \"use strict\" statement.", (lines source).headD []⟩ ∨
      ∃ b line text, NoticedAt line text (mask b text) f := by
  rw [findings] at h
  rcases List.mem_append.1 h with h | h
  · exact .inl (mem_strictFindings h)
  · obtain ⟨b, line, text, h⟩ := mem_walk _ h
    exact .inr ⟨b, line, text, noticed_lineFindings h⟩

theorem findings_located (on : Switches) (source : List Char) :
    ∀ f ∈ findings on source, LocatedIn 0 (lines source) f := by
  intro f hf
  rw [findings] at hf
  rcases List.mem_append.1 hf with hf | hf
  · rw [mem_strictFindings hf]
    exact strict_located .strict source
  · exact walk_located (lineFindings_at on) (lines source) false 0 f hf

theorem findings_sorted (on : Switches) (source : List Char) :
    (findings on source).Pairwise fun f g => f.line ≤ g.line := by
  refine sorted_append ?_ (walk_sorted (lineFindings_at on) (lines source) false 0)
  intro f hf
  rw [mem_strictFindings hf]

theorem scanFirst_eq (on : Switches) (texts : List (List Char)) : ∀ (b : Bool) (line : Nat),
    scanFirst on b line texts = (scan on b line texts).head? := by
  induction texts with
  | nil =>
    intro b line
    rfl
  | cons text texts ih =>
    intro b line
    rw [scanFirst, scan, walk]
    cases h : lineFindings on line text (mask b text) with
    | nil => exact ih _ _
    | cons f fs => rfl

/-- The edition that stops early stops at the first of all findings. -/
theorem firstFinding_eq (on : Switches) (source : List Char) :
    firstFinding on source = (findings on source).head? := by
  rw [firstFinding, findings]
  cases strictFindings on source ((lines source).headD []) with
  | nil => exact scanFirst_eq on (lines source) false 0
  | cons f fs => rfl

/-- What the edition leaves behind are findings of the text, in their order. -/
theorem trail_sublist (on : Switches) (source : List Char) :
    ((trail on source).filterMap id).Sublist (findings on source) := by
  rw [trail]
  split
  · rw [firstFinding_eq]
    cases findings on source with
    | nil => exact List.Sublist.refl _
    | cons f fs => exact List.singleton_sublist.2 List.mem_cons_self
  · exact (filterMap_map_some (findings on source)).symm ▸ List.Sublist.refl _

end Lint

namespace Hint

variable {line : Nat} {text : List Char} {f : Finding}

theorem found_eq {α : Type} {p : Matcher α} {reason : α → String} {code : List Char} {column : Nat}
    {s : String} (h : found p reason code = some (column, s)) :
    ∃ a, find p code = some (column, a) ∧ s = reason a := by
  unfold found at h
  split at h
  · rename_i c a hfind
    cases h
    exact ⟨a, hfind, rfl⟩
  · cases h

theorem noticed_rule {m : Masked} {r : LineRule} (hr : r ∈ rules) {column : Nat} {reason : String}
    (h : r.check m.code = some (column, reason)) : Noticed m r.rule column reason := by
  simp only [rules, List.mem_cons, List.not_mem_nil, or_false] at hr
  -- one case for each rule, in the order of the table
  rcases hr with rfl | rfl | rfl | rfl | rfl | rfl | rfl | rfl | rfl | rfl
  · obtain ⟨op, hfind, rfl⟩ := found_eq h
    exact .loose hfind
  · obtain ⟨_, hfind, rfl⟩ := found_eq h
    exact .eval hfind (.inr rfl)
  · obtain ⟨op, hfind, rfl⟩ := found_eq h
    exact .increment hfind (.inr rfl)
  · obtain ⟨_, hfind, rfl⟩ := found_eq h
    exact .debugger hfind (.inr rfl)
  · obtain ⟨name, hfind, rfl⟩ := found_eq h
    exact .developer hfind
  · obtain ⟨_, hfind, rfl⟩ := found_eq h
    exact .caller hfind
  · dsimp only at h
    split at h
    · cases h
      exact .construction
    · cases h
  · obtain ⟨_, hfind, rfl⟩ := found_eq h
    exact .assignment hfind
  · dsimp only at h
    split at h
    · rename_i hfind
      cases h
      exact .body hfind
    · cases h
  · obtain ⟨_, hfind, rfl⟩ := found_eq h
    exact .block hfind

theorem noticed_lineFindings {on : Switches} {m : Masked} (h : f ∈ lineFindings on line text m) :
    NoticedAt line text m f := by
  rw [lineFindings] at h
  split at h
  · cases h
  · simp only [List.mem_append] at h
    rcases h with (h | h) | h
    · obtain ⟨r, hr, h⟩ := List.mem_flatMap.1 h
      rw [LineRule.apply] at h
      split at h
      · split at h
        · rename_i hcheck
          rw [List.mem_singleton.1 h]
          exact ⟨rfl, rfl, noticed_rule hr hcheck⟩
        · cases h
      · cases h
    · rw [List.mem_singleton.1 (List.mem_ite_nil_right.1 h).2]
      exact ⟨rfl, rfl, .trailing (.inr rfl)⟩
    · rw [List.mem_singleton.1 (List.mem_ite_nil_right.1 h).2]
      exact ⟨rfl, rfl, .semicolon⟩

theorem lineFindings_at (on : Switches) (b : Bool) (line : Nat) (text : List Char) :
    ∀ f ∈ lineFindings on line text (mask b text), FindingAt line text f :=
  fun _ hf => (noticed_lineFindings hf).findingAt (width_mask_le b text)

theorem mem_strictFindings {on : Switches} {source : List Char} {f : Finding}
    (h : f ∈ if on .strict && !declaresStrict source then
      [(⟨.strict, 0, 0, "Missing \"use strict\" statement.", (lines source).headD []⟩ : Finding)]
      else []) :
    f = ⟨.strict, 0, 0, "Missing \"use strict\" statement.", (lines source).headD []⟩ := by
  split at h
  · exact List.mem_singleton.1 h
  · cases h

/-- A finding is that on the whole text, or one that a rule makes of a line. -/
theorem mem_findings {on : Switches} {source : List Char} (h : f ∈ findings on source) :
    f = ⟨.strict, 0, 0, "Missing \"use strict\" statement.", (lines source).headD []⟩ ∨
      ∃ b line text, NoticedAt line text (mask b text) f := by
  rw [findings] at h
  rcases List.mem_append.1 h with h | h
  · exact .inl (mem_strictFindings h)
  · obtain ⟨b, line, text, h⟩ := mem_walk _ h
    exact .inr ⟨b, line, text, noticed_lineFindings h⟩

theorem findings_located (on : Switches) (source : List Char) :
    ∀ f ∈ findings on source, LocatedIn 0 (lines source) f := by
  intro f hf
  rw [findings] at hf
  rcases List.mem_append.1 hf with hf | hf
  · rw [mem_strictFindings hf]
    exact strict_located .strict source
  · exact walk_located (lineFindings_at on) (lines source) false 0 f hf

theorem findings_sorted (on : Switches) (source : List Char) :
    (findings on source).Pairwise fun f g => f.line ≤ g.line := by
  refine sorted_append ?_ (walk_sorted (lineFindings_at on) (lines source) false 0)
  intro f hf
  rw [mem_strictFindings hf]

end Hint

end ScriptLint.Analysis
