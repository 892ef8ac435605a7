import ScriptLint.Proofs.RuleFindings
import ScriptLint.Proofs.Tokens

/-!
# ScriptLint.Proofs.Conditions

When the lenient edition takes a condition for an assignment. It wants a lone `=` behind the opening
parenthesis of a condition, as the first character of a comparison there, and a closing parenthesis
further on; but it does not see which parenthesis closes the condition. So an assignment in the
statement behind a condition is taken for one in the condition.

* `HeadAt`: a keyword and an opening parenthesis
* `Encloses`, `encloses_iff`: what a parenthesis encloses, up to the one that closes it
* `headOf_eq_some_iff`, `assigns_iff`: the parts of the pattern
* `assignments_reported`: which lines are reported, and what stands there
* `assignment_behind_condition`: a line that is reported for what stands behind its condition
-/

namespace ScriptLint.Analysis

open ScriptLint.Text

section Heads

/-- Behind `before`, where a word starts, there is one of some keywords, and then an opening
parenthesis, behind which there is `body`. -/
def HeadAt (ws : List String) (code before body : List Char) : Prop :=
  endsWord before.getLast? = false ∧ ∃ w ∈ ws, ∃ gap : List Char,
    code = before ++ (w.toList ++ (gap ++ '(' :: body)) ∧ ∀ c ∈ gap, isBlank c = true

theorem after?_append (w rest : List Char) : after? w (w ++ rest) = some rest := by
  induction w with
  | nil => rfl
  | cons c w ih => rw [List.cons_append, after?, if_pos rfl, ih]

theorem keyword?_eq_some_iff {w : String} {prev : Option Char} {cs rest : List Char} :
    keyword? w prev cs = some rest ↔ endsWord prev = false ∧ cs = w.toList ++ rest := by
  constructor
  · intro h
    refine ⟨?_, keyword?_eq h⟩
    cases hprev : endsWord prev with
    | false => rfl
    | true =>
      rw [keyword?, hprev, if_pos rfl] at h
      cases h
  · rintro ⟨hprev, rfl⟩
    rw [keyword?, hprev, if_neg Bool.false_ne_true, after?_append]

/-- White space ends at a character that is none. -/
theorem dropWhile_gap {gap : List Char} (hgap : ∀ c ∈ gap, isBlank c = true) {c : Char}
    (hc : isBlank c = false) (cs : List Char) : (gap ++ c :: cs).dropWhile isBlank = c :: cs := by
  rw [List.dropWhile_append_of_pos hgap, List.dropWhile_cons_of_neg (by rw [hc]; decide)]

/-- Keywords that start differently. -/
def StartApart (ws : List String) : Prop :=
  ∀ v ∈ ws, v.toList ≠ [] ∧ ∀ w ∈ ws, v.toList.head? = w.toList.head? → v = w

instance (ws : List String) : Decidable (StartApart ws) :=
  inferInstanceAs (Decidable (∀ v ∈ ws, _ ∧ ∀ w ∈ ws, _ → _))

/-- Of keywords that start differently one at most is found. -/
theorem findSome?_keyword {ws : List String} (hws : StartApart ws) {w : String} (hw : w ∈ ws)
    {prev : Option Char} (hprev : endsWord prev = false) (rest : List Char) :
    ws.findSome? (keyword? · prev (w.toList ++ rest)) = some rest := by
  have hfound : keyword? w prev (w.toList ++ rest) = some rest :=
    keyword?_eq_some_iff.2 ⟨hprev, rfl⟩
  cases h : ws.findSome? (keyword? · prev (w.toList ++ rest)) with
  | none =>
    rw [List.findSome?_eq_none_iff.1 h w hw] at hfound
    cases hfound
  | some rest' =>
    obtain ⟨v, hv, hfound'⟩ := List.exists_of_findSome?_eq_some h
    have heq := (keyword?_eq_some_iff.1 hfound').2
    have hhead : v.toList.head? = w.toList.head? := by
      have hhead := congrArg List.head? heq
      obtain ⟨c, v', hv'⟩ := List.exists_cons_of_ne_nil (hws v hv).1
      obtain ⟨d, w', hw'⟩ := List.exists_cons_of_ne_nil (hws w hw).1
      rw [hv', hw'] at hhead ⊢
      exact hhead.symm
    obtain rfl := (hws v hv).2 w hw hhead
    rw [hfound] at hfound'
    rw [← hfound']

theorem headOf_eq_some_iff {ws : List String} (hws : StartApart ws) {prev : Option Char}
    {cs body : List Char} :
    headOf ws prev cs = some body ↔ endsWord prev = false ∧ ∃ w ∈ ws, ∃ gap : List Char,
      cs = w.toList ++ (gap ++ '(' :: body) ∧ ∀ c ∈ gap, isBlank c = true := by
  constructor
  · intro h
    unfold headOf at h
    split at h
    · cases h
    · rename_i rest hfound
      obtain ⟨w, hw, hword⟩ := List.exists_of_findSome?_eq_some hfound
      obtain ⟨hprev, hcs⟩ := keyword?_eq_some_iff.1 hword
      split at h
      · rename_i body' hbody
        cases h
        refine ⟨hprev, w, hw, rest.takeWhile isBlank, ?_, fun c hc => mem_takeWhile hc⟩
        rw [hcs, ← hbody, List.takeWhile_append_dropWhile]
      · cases h
  · rintro ⟨hprev, w, hw, gap, rfl, hgap⟩
    rw [headOf, findSome?_keyword hws hw hprev]
    dsimp only
    rw [dropWhile_gap hgap (by decide)]
    rfl

/-- Where there is a head, the pattern finds it. -/
theorem headAt_iff {ws : List String} (hws : StartApart ws) {code before body : List Char} :
    HeadAt ws code before body ↔
      ∃ rest, code = before ++ rest ∧ headOf ws before.getLast? rest = some body := by
  constructor
  · rintro ⟨hprev, w, hw, gap, hcode, hgap⟩
    exact ⟨_, hcode, (headOf_eq_some_iff hws).2 ⟨hprev, w, hw, gap, rfl, hgap⟩⟩
  · rintro ⟨rest, rfl, hhead⟩
    obtain ⟨hprev, w, hw, gap, rfl, hgap⟩ := (headOf_eq_some_iff hws).1 hhead
    exact ⟨hprev, w, hw, gap, rfl, hgap⟩

end Heads

section Parentheses

/-- What stands in `body`, behind `depth + 1` open parentheses, up to the one that closes the
outermost of them, or all of it if there is none. -/
structure Encloses (depth : Nat) (body inner : List Char) : Prop where
  inside : ∀ front, front <+: inner → front.count ')' ≤ depth + front.count '('
  ends : inner = body ∨ ∃ behind, body = inner ++ ')' :: behind ∧
    inner.count ')' = depth + inner.count '('

/-- The same, by counting the parentheses that are open. -/
def enclosed : Nat → List Char → List Char
  | _, [] => []
  | depth, c :: cs =>
    if c = '(' then c :: enclosed (depth + 1) cs
    else if c = ')' then
      match depth with
      | 0 => []
      | depth + 1 => c :: enclosed depth cs
    else c :: enclosed depth cs

namespace Encloses

variable {depth : Nat} {body inner inner' : List Char}

theorem isPrefix (h : Encloses depth body inner) : inner <+: body := by
  obtain rfl | ⟨behind, rfl, _⟩ := h.ends
  · exact List.prefix_refl inner
  · exact List.prefix_append inner _

/-- The parenthesis that closes is the first that can. -/
theorem eq_of_length_le (h : Encloses depth body inner) (h' : Encloses depth body inner')
    (hle : inner.length ≤ inner'.length) : inner = inner' := by
  have hstart := List.prefix_of_prefix_length_le h.isPrefix h'.isPrefix hle
  obtain rfl | ⟨behind, hbody, hcount⟩ := h.ends
  · exact hstart.eq_of_length_le h'.isPrefix.length_le
  · refine Decidable.byContradiction fun hne => ?_
    have hlonger : (inner ++ [')']).length ≤ inner'.length := by
      have hlength : inner.length ≠ inner'.length := fun heq => hne (hstart.eq_of_length heq)
      rw [List.length_append, List.length_singleton]
      omega
    have hclosed : inner ++ [')'] <+: body := ⟨behind, by rw [hbody, List.append_assoc]; rfl⟩
    have hinside := h'.inside _ (List.prefix_of_prefix_length_le hclosed h'.isPrefix hlonger)
    rw [List.count_append, List.count_append, hcount] at hinside
    have hclose : [')'].count ')' = 1 := by decide
    have hopen : [')'].count '(' = 0 := by decide
    omega

theorem unique (h : Encloses depth body inner) (h' : Encloses depth body inner') :
    inner = inner' := by
  rcases Nat.le_total inner.length inner'.length with hle | hle
  · exact h.eq_of_length_le h' hle
  · exact (h'.eq_of_length_le h hle).symm

/-- One character more in front, which may open or close a parenthesis. -/
theorem cons {depth' : Nat} {c : Char} (h : Encloses depth' body inner)
    (hdepth : depth' + [c].count ')' = depth + [c].count '(') :
    Encloses depth (c :: body) (c :: inner) := by
  have hcount : ∀ (x : Char) (cs : List Char), (c :: cs).count x = [c].count x + cs.count x := by
    intro x cs
    rw [← List.count_append, List.singleton_append]
  constructor
  · intro front hfront
    cases front with
    | nil => exact Nat.zero_le _
    | cons d front =>
      obtain ⟨rfl, hrest⟩ := List.cons_prefix_cons.1 hfront
      have hinside := h.inside front hrest
      rw [hcount ')' front, hcount '(' front]
      omega
  · obtain rfl | ⟨behind, rfl, hends⟩ := h.ends
    · exact .inl rfl
    · refine .inr ⟨behind, rfl, ?_⟩
      rw [hcount ')' inner, hcount '(' inner]
      omega

end Encloses

theorem encloses_enclosed (depth : Nat) (body : List Char) :
    Encloses depth body (enclosed depth body) := by
  have hnil : ∀ {depth : Nat}, ∀ front : List Char, front <+: [] →
      front.count ')' ≤ depth + front.count '(' := by
    intro depth front hfront
    rw [List.prefix_nil.1 hfront]
    exact Nat.zero_le _
  fun_induction enclosed depth body with
  | case1 depth => exact ⟨hnil, .inl rfl⟩
  | case2 depth cs ih => exact ih.cons rfl
  | case3 cs => exact ⟨hnil, .inr ⟨cs, rfl, rfl⟩⟩
  | case4 cs _ depth ih => exact ih.cons rfl
  | case5 depth c cs hopen hclose ih =>
    refine ih.cons ?_
    rw [List.count_singleton, List.count_singleton]
    simp [hopen, hclose]

theorem encloses_iff {depth : Nat} {body inner : List Char} :
    Encloses depth body inner ↔ inner = enclosed depth body := by
  constructor
  · intro h
    exact h.unique (encloses_enclosed depth body)
  · rintro rfl
    exact encloses_enclosed depth body

end Parentheses

section Assignments

/-- There is an `=` that is no part of `==`, `===`, `!=`, `!==`, `<=` or `>=`. -/
def Assigns (cs : List Char) : Prop :=
  ∃ before behind, cs = before ++ '=' :: behind ∧ before.getLast?.any isComparison = false ∧
    behind.head? ≠ some '='

/-- The first character of a comparison is a lone `=`, not at the start, and there is a closing
parenthesis further on, but not right behind it. -/
def LooksAssigned (body : List Char) : Prop :=
  ∃ before c behind, body = before ++ '=' :: c :: behind ∧ before ≠ [] ∧
    (∀ d ∈ before, isComparison d = false) ∧ c ≠ '=' ∧ ')' ∈ behind

theorem assigns_iff {body : List Char} : assigns body = true ↔ LooksAssigned body := by
  constructor
  · intro h
    unfold assigns at h
    split at h
    · rename_i d before c behind hbefore hbehind
      rw [Bool.and_eq_true, bne_iff_ne, List.contains_iff_mem] at h
      refine ⟨d :: before, c, behind, ?_, List.cons_ne_nil _ _, ?_, h⟩
      · rw [← hbefore, ← hbehind, List.takeWhile_append_dropWhile]
      · intro x hx
        rw [← hbefore] at hx
        have hno := mem_takeWhile hx
        rwa [Bool.not_eq_true'] at hno
    · cases h
  · rintro ⟨before, c, behind, rfl, hbefore, hno, hc, hmem⟩
    have hall : ∀ d ∈ before, (!isComparison d) = true := by
      intro d hd
      rw [hno d hd]
      rfl
    obtain ⟨d, before, rfl⟩ := List.exists_cons_of_ne_nil hbefore
    have hlone : ¬(!isComparison '=') = true := by decide
    rw [assigns, List.takeWhile_append_of_pos hall, List.dropWhile_append_of_pos hall,
      List.takeWhile_cons_of_neg (p := (!isComparison ·)) hlone,
      List.dropWhile_cons_of_neg (p := (!isComparison ·)) hlone]
    show (c != '=' && behind.contains ')') = true
    rw [Bool.and_eq_true, bne_iff_ne, List.contains_iff_mem]
    exact ⟨hc, hmem⟩

/-- Nothing is compared or assigned between two parentheses, and behind them there is an assignment. -/
def AssignsBehind (body inner : List Char) : Prop :=
  (∀ c ∈ inner, isComparison c = false) ∧
    ∃ behind, body = inner ++ ')' :: behind ∧ Assigns behind

theorem assigns_lone {before behind : List Char} {c : Char}
    (hbefore : ∀ d ∈ before, isComparison d = false) (hc : c ≠ '=')
    (hbehind : behind.head? = none ∨ behind.head? = some c) :
    Assigns (before ++ '=' :: behind) := by
  refine ⟨before, behind, rfl, ?_, ?_⟩
  · cases hlast : before.getLast? with
    | none => rfl
    | some d => exact hbefore d (List.mem_of_getLast? hlast)
  · intro heq
    rcases hbehind with hnone | hsome
    · rw [hnone] at heq
      cases heq
    · rw [hsome] at heq
      exact hc (Option.some.inj heq)

/-- What looks like an assignment is one between the parentheses, or else one behind them. -/
theorem LooksAssigned.assigns_or_behind {body inner : List Char} (h : LooksAssigned body)
    (hinner : Encloses 0 body inner) : Assigns inner ∨ AssignsBehind body inner := by
  obtain ⟨before, c, behind, rfl, _, hbefore, hc, _⟩ := h
  obtain rfl | ⟨closed, hbody, _⟩ := hinner.ends
  · exact .inl (assigns_lone hbefore hc (.inr rfl))
  · rcases List.append_eq_append_iff.1 hbody with ⟨inside, rfl, hsplit⟩ | ⟨inside, rfl, hsplit⟩
    · -- the sign stands in front of the closing parenthesis
      cases inside with
      | nil => cases hsplit
      | cons d inside =>
        obtain ⟨rfl, hrest⟩ := List.cons.inj hsplit
        refine .inl (assigns_lone hbefore hc ?_)
        cases inside with
        | nil => exact .inl rfl
        | cons x inside =>
          obtain ⟨rfl, _⟩ := List.cons.inj hrest
          exact .inr rfl
    · -- the parenthesis is closed in front of the sign
      cases inside with
      | nil => cases hsplit
      | cons d inside =>
        obtain ⟨rfl, rfl⟩ := List.cons.inj hsplit
        have hassigns : Assigns (inside ++ '=' :: c :: behind) :=
          assigns_lone (fun x hx => hbefore x (List.mem_append_right _ (List.mem_cons_of_mem _ hx)))
            hc (.inr rfl)
        refine .inr ⟨fun x hx => hbefore x (List.mem_append_left _ hx), _, ?_, hassigns⟩
        rw [List.append_assoc, List.cons_append]

end Assignments

section Findings

/-- The keywords that have a condition. -/
def conditionWords : List String := ["if", "while"]

def assignmentReason : String :=
  "Expected a conditional expression and instead saw an assignment."

theorem assignsInCondition_iff {prev : Option Char} {cs : List Char} :
    (assignsInCondition prev cs).isSome = true ↔
      ∃ body, headOf conditionWords prev cs = some body ∧ LooksAssigned body := by
  constructor
  · intro h
    unfold assignsInCondition at h
    split at h
    · rename_i body hbody
      split at h
      · rename_i hassigns
        exact ⟨body, hbody, assigns_iff.1 hassigns⟩
      · cases h
    · cases h
  · rintro ⟨body, hbody, h⟩
    rw [conditionWords] at hbody
    rw [assignsInCondition, hbody]
    dsimp only
    rw [if_pos (assigns_iff.2 h)]
    rfl

/-- Where the pattern is found, there is a head with what looks like an assignment. -/
theorem find_assignsInCondition {code : List Char} {k : Nat}
    (h : find assignsInCondition code = some (k, ())) :
    ∃ before body, HeadAt conditionWords code before body ∧ k = width before ∧
      LooksAssigned body := by
  obtain ⟨before, rest, hcode, hk, hmatch⟩ := search_split _ _ _ _ h
  rw [Option.or_none] at hmatch
  obtain ⟨body, hhead, hlooks⟩ := assignsInCondition_iff.1 (Option.isSome_iff_exists.2 ⟨(), hmatch⟩)
  have hwords : StartApart conditionWords := by decide
  exact ⟨before, body, (headAt_iff hwords).2 ⟨rest, hcode, hhead⟩, by rw [hk, Nat.zero_add], hlooks⟩

/-- Where there is a head with what looks like an assignment, the pattern is found. -/
theorem find_of_looksAssigned {code before body : List Char}
    (hhead : HeadAt conditionWords code before body) (hlooks : LooksAssigned body) :
    ∃ k, find assignsInCondition code = some (k, ()) := by
  have hwords : StartApart conditionWords := by decide
  obtain ⟨rest, hcode, hbody⟩ := (headAt_iff hwords).1 hhead
  have hsome : (find assignsInCondition code).isSome = true :=
    isSome_find_iff.2 ⟨before, rest, hcode, assignsInCondition_iff.2 ⟨body, hbody, hlooks⟩⟩
  obtain ⟨⟨k, _⟩, hfind⟩ := Option.isSome_iff_exists.1 hsome
  exact ⟨k, hfind⟩

namespace Hint

variable {on : Switches} {source : List Char}

/-- By the rule for conditions, the lenient edition finds the pattern. -/
theorem makes_boss (on : Switches) : Makes .jshint on .boss fun _ m =>
    if !on .boss then found assignsInCondition (fun _ => assignmentReason) m.code else none :=
  makes_row (r := ⟨.boss, fun on => !on .boss, found assignsInCondition fun _ => assignmentReason⟩)
    rfl rfl (by decide) (by decide) on

theorem rule_of_assignment {f : Finding} (hf : f ∈ findings on source)
    (hreason : f.reason = assignmentReason) : f.rule = .boss := by
  have hrule : Rule.ofReason? assignmentReason = some .boss := by decide
  have htold := told_findings hf
  rw [hreason, hrule] at htold
  exact (Option.some.inj htold).symm

/-- A finding of the lenient edition that tells of an assignment is made with `boss` off, on a line
where the pattern is found. -/
theorem noticed_of_assignment {f : Finding} (hf : f ∈ findings on source)
    (hreason : f.reason = assignmentReason) :
    (!on .boss) = true ∧ ∃ m : Masked, (maskLines mask false (lines source))[f.line]? = some m ∧
      find assignsInCondition m.code = some (f.column, ()) := by
  obtain ⟨m, _, hm, hnoticed⟩ := (makes_boss on).noticed_of_mem (by decide) hf
    (rule_of_assignment hf hreason)
  obtain ⟨hboss, hfound⟩ := Option.ite_none_right_eq_some.1 hnoticed
  obtain ⟨_, hfind, _⟩ := found_eq hfound
  exact ⟨hboss, m, hm, hfind⟩

theorem find_of_mem {f : Finding} (hf : f ∈ findings on source)
    (hreason : f.reason = assignmentReason) :
    ∃ m : Masked, (maskLines mask false (lines source))[f.line]? = some m ∧
      find assignsInCondition m.code = some (f.column, ()) := (noticed_of_assignment hf hreason).2

/-- Where the pattern is found, an assignment is reported. -/
theorem mem_of_find (hboss : on .boss = false) {k column : Nat} {m : Masked}
    (hm : (maskLines mask false (lines source))[k]? = some m)
    (hfind : find assignsInCondition m.code = some (column, ())) :
    ∃ f ∈ findings on source, f.line = k ∧ f.reason = assignmentReason := by
  obtain ⟨text, htext⟩ := exists_line hm
  have hnoticed : (if !on .boss then
      found assignsInCondition (fun _ => assignmentReason) m.code else none) =
        some (column, assignmentReason) := by
    rw [hboss, found, hfind]
    rfl
  exact ⟨_, (makes_boss on).mem_of_noticed htext hm hnoticed, rfl, rfl⟩

/-- An assignment is reported with `boss` off only. -/
theorem boss_off_of_mem {f : Finding} (hf : f ∈ findings on source)
    (hreason : f.reason = assignmentReason) : on .boss = false :=
  (Bool.not_eq_true' _).mp (noticed_of_assignment hf hreason).1

end Hint

end Findings

end ScriptLint.Analysis

namespace ScriptLint

open Text Engine Analysis

/-- When the lenient edition reports an assignment in a condition: with `boss` off, on every line
that has, as it is masked, an `if` or a `while` where a word starts, and behind its opening
parenthesis what looks like an assignment. The column is that of such a keyword, and there is an
assignment between its parenthesis and the one that closes it, or else nothing is compared between
these, and there is an assignment behind them. So do the scripts of the library report. -/
theorem assignments_reported (o : Options) (source : List Char) :
    ∃ fs : List Finding,
      bundledTrail .jshint o.switches source = fs.map some ∧
      (∀ path options text, handOver options text = .ok (o, source) →
        Reports .jshint path options text fs) ∧
      (∀ k m, (maskLines (maskOf .jshint) false (lines source))[k]? = some m →
        ((∃ f ∈ fs, f.line = k ∧ f.reason = assignmentReason) ↔
          o.isOn "boss" = false ∧
            ∃ before body, HeadAt conditionWords m.code before body ∧ LooksAssigned body)) ∧
      ∀ f ∈ fs, f.reason = assignmentReason →
        ∃ m before body inner,
          (maskLines (maskOf .jshint) false (lines source))[f.line]? = some m ∧
          HeadAt conditionWords m.code before body ∧ f.column = width before ∧
          Encloses 0 body inner ∧ (Assigns inner ∨ AssignsBehind body inner) := by
  refine ⟨Hint.findings o.switches source, rfl, ?_, ?_, ?_⟩
  · intro path options text hhand
    exact reports_trail hhand rfl
  · intro k m hm
    constructor
    · rintro ⟨f, hf, rfl, hreason⟩
      obtain ⟨m', hm', hfind⟩ := Hint.find_of_mem hf hreason
      obtain rfl : m = m' := Option.some.inj (hm.symm.trans hm')
      obtain ⟨before, body, hhead, _, hlooks⟩ := find_assignsInCondition hfind
      exact ⟨Hint.boss_off_of_mem hf hreason, before, body, hhead, hlooks⟩
    · rintro ⟨hboss, before, body, hhead, hlooks⟩
      obtain ⟨column, hfind⟩ := find_of_looksAssigned hhead hlooks
      exact Hint.mem_of_find hboss hm hfind
  · intro f hf hreason
    obtain ⟨m, hm, hfind⟩ := Hint.find_of_mem hf hreason
    obtain ⟨before, body, hhead, hcolumn, hlooks⟩ := find_assignsInCondition hfind
    have henclosed := encloses_enclosed 0 body
    exact ⟨m, before, body, _, hm, hhead, hcolumn, henclosed, hlooks.assigns_or_behind henclosed⟩

/-- A line is reported though nothing is assigned in its condition: the assignment stands in the
statement behind it, and the parenthesis that the rule takes for the closing one, behind that. -/
theorem assignment_behind_condition :
    Options.empty.isOn "boss" = false ∧
    bundledTrail .jshint Options.empty.switches "if (x) y = f(z);".toList =
      [some ⟨.boss, 0, 0, assignmentReason, "if (x) y = f(z);".toList⟩] ∧
    ∀ m before body inner,
      (maskLines (maskOf .jshint) false (lines "if (x) y = f(z);".toList))[0]? = some m →
      HeadAt conditionWords m.code before body → Encloses 0 body inner → ¬ Assigns inner := by
  refine ⟨by decide, by decide, ?_⟩
  intro m before body inner hm hhead hinner hassigns
  have hmask : (maskLines (maskOf .jshint) false (lines "if (x) y = f(z);".toList))[0]? =
      some ⟨"if (x) y = f(z);".toList, false⟩ := by decide
  obtain rfl := Option.some.inj (hm.symm.trans hmask)
  have hwords : StartApart conditionWords := by decide
  obtain ⟨rest, hcode, hbody⟩ := (headAt_iff hwords).1 hhead
  -- wherever a head stands, there is no sign up to the parenthesis that closes it
  have hall : ∀ n ∈ List.range 17, ∀ body ∈ headOf conditionWords
      ("if (x) y = f(z);".toList.take n).getLast? ("if (x) y = f(z);".toList.drop n),
      '=' ∉ enclosed 0 body := by decide
  have hlength : before.length ∈ List.range 17 := by
    have hlength := congrArg List.length hcode
    rw [List.length_append] at hlength
    rw [List.mem_range]
    exact Nat.lt_of_le_of_lt (Nat.le_add_right _ rest.length) (hlength ▸ by decide)
  refine hall _ hlength body ?_ ?_
  · dsimp only at hcode
    rw [hcode, List.take_left, List.drop_left]
    exact hbody
  · obtain ⟨front, behind, hsplit, _⟩ := hassigns
    rw [← encloses_iff.1 hinner, hsplit]
    exact List.mem_append_right _ List.mem_cons_self

end ScriptLint
