import ScriptLint.Proofs.Conditions

/-!
# ScriptLint.Proofs.Bodies

Where the lenient edition sees a body that is no block. Behind the head of a statement it goes on to
the last closing parenthesis that a name follows, and takes this name for the start of the body. But
it does not report the column of the name that it found: it looks for the name once more, from the end
of the line. So the column is that of the body only where the name does not come again behind it.

* `BareAt`, `LastBare`: a name behind a closing parenthesis, and the last of these
* `bareBody_eq`, `isSome_bareBody`: the recursion finds the last
* `Captured`, `Captured.unique`: the name that the pattern captures in a line, and where
* `lastColumn_last`: the last column at which characters stand
* `makes_curly`: what the lenient edition finds
* `bodies_reported`: which lines are reported, at which column
* `body_named_again`: a line that is reported at the second occurrence of the name
-/

namespace ScriptLint.Analysis

open ScriptLint.Text

section Bare

/-- Behind `inside`, which is on one line, there are a closing parenthesis, some white space, and a
whole name. -/
structure BareAt (body inside gap name behind : List Char) : Prop where
  split : body = inside ++ ')' :: (gap ++ (name ++ behind))
  onLine : ∀ c ∈ inside, isLineBreak c = false
  blank : ∀ c ∈ gap, isBlank c = true
  start : name.head?.any isNameStart = true
  chars : ∀ c ∈ name, isNameChar c = true
  whole : behind.head?.any isNameChar = false

/-- There is such a name. -/
def HasBare (body : List Char) : Prop := ∃ inside gap name behind, BareAt body inside gap name behind

/-- The last such name. -/
structure LastBare (body inside gap name behind : List Char) : Prop extends
    BareAt body inside gap name behind where
  last : ∀ inside' gap' name' behind', BareAt body inside' gap' name' behind' →
    inside'.length ≤ inside.length

theorem isBlank_nameChar {c : Char} (h : isNameChar c = true) : isBlank c = false := by
  have hrange := isNameChar_printable h
  have hspace : c.toNat ≠ 0x20 := by
    intro hc
    obtain rfl : c = ' ' := Char.ext (UInt32.toNat_inj.1 hc)
    exact absurd h (by decide)
  simp only [isBlank, isCommonSpace, Bool.or_eq_false_iff, Bool.and_eq_false_iff,
    decide_eq_false_iff_not, beq_eq_false_iff_ne]
  omega

theorem isNameChar_start {c : Char} (h : isNameStart c = true) : isNameChar c = true := by
  simp only [isNameStart, isNameChar, isWordChar, Char.isAlphanum, Bool.or_eq_true] at h ⊢
  rcases h with (h | h) | h
  · exact .inl (.inl (.inl h))
  · exact .inl (.inr h)
  · exact .inr h

namespace BareAt

variable {body inside gap name behind : List Char} {c : Char} {cs : List Char}

/-- The white space ends where the name starts. -/
theorem dropWhile_blank (h : BareAt body inside gap name behind) :
    (gap ++ (name ++ behind)).dropWhile isBlank = name ++ behind := by
  have hstart := h.start
  cases name with
  | nil => cases hstart
  | cons c name =>
    have hc : isNameChar c = true := h.chars c List.mem_cons_self
    exact dropWhile_gap h.blank (isBlank_nameChar hc) (name ++ behind)

theorem takeWhile_name (h : BareAt body inside gap name behind) :
    (name ++ behind).takeWhile isNameChar = name := takeWhile_append_stop h.chars h.whole

theorem cons (h : BareAt cs inside gap name behind) (hc : isLineBreak c = false) :
    BareAt (c :: cs) (c :: inside) gap name behind :=
  { h with
    split := by rw [h.split, List.cons_append]
    onLine := List.forall_mem_cons.2 ⟨hc, h.onLine⟩ }

theorem of_cons (h : BareAt (c :: cs) inside gap name behind) (hinside : inside ≠ []) :
    ∃ inside', inside = c :: inside' ∧ BareAt cs inside' gap name behind := by
  obtain ⟨d, inside', rfl⟩ := List.exists_cons_of_ne_nil hinside
  obtain ⟨rfl, hcs⟩ := List.cons.inj h.split
  exact ⟨inside', rfl, { h with
    split := hcs
    onLine := (List.forall_mem_cons.1 h.onLine).2 }⟩

/-- A parenthesis that a name follows. -/
theorem of_start (h : (cs.dropWhile isBlank).head?.any isNameStart = true) :
    BareAt (')' :: cs) [] (cs.takeWhile isBlank) ((cs.dropWhile isBlank).takeWhile isNameChar)
      ((cs.dropWhile isBlank).dropWhile isNameChar) where
  split := by rw [List.takeWhile_append_dropWhile, List.takeWhile_append_dropWhile]; rfl
  onLine := List.forall_mem_nil _
  blank := fun _ hd => mem_takeWhile hd
  start := by
    cases hrest : cs.dropWhile isBlank with
    | nil => rw [hrest] at h; cases h
    | cons d rest =>
      rw [hrest] at h
      have hd : isNameChar d = true := isNameChar_start h
      rw [List.takeWhile_cons_of_pos hd]
      exact h
  chars := fun _ hd => mem_takeWhile hd
  whole := head?_dropWhile_stop isNameChar _

end BareAt

theorem isSome_bareBody {body : List Char} : ∀ {inside gap name behind : List Char},
    BareAt body inside gap name behind → (bareBody body).isSome = true := by
  induction body with
  | nil =>
    intro inside gap name behind h
    cases inside <;> cases h.split
  | cons c cs ih =>
    intro inside gap name behind h
    cases inside with
    | nil =>
      obtain ⟨rfl, rfl⟩ := List.cons.inj h.split
      have hstart : (name ++ behind).head?.any isNameStart = true := by
        have hstart := h.start
        cases name with
        | nil => cases hstart
        | cons d name => exact hstart
      rw [bareBody, if_neg (by decide), h.dropWhile_blank]
      split
      · rfl
      · rw [if_pos ⟨rfl, hstart⟩]
        rfl
    | cons d inside =>
      have hc : isLineBreak d = false := h.onLine d List.mem_cons_self
      obtain ⟨_, hinside, h'⟩ := h.of_cons (List.cons_ne_nil d inside)
      cases hinside
      obtain ⟨found, hfound⟩ := Option.isSome_iff_exists.1 (ih h')
      rw [bareBody, if_neg (by rw [hc]; decide), hfound]
      rfl

/-- What the recursion finds is the last. -/
theorem bareBody_eq (body : List Char) : ∀ {name : List Char}, bareBody body = some name →
    ∃ inside gap behind, LastBare body inside gap name behind := by
  induction body with
  | nil => nofun
  | cons c cs ih =>
    intro name h
    rw [bareBody] at h
    split at h
    · cases h
    · rename_i hc
      rw [Bool.not_eq_true] at hc
      split at h
      · rename_i found hfound
        cases h
        obtain ⟨inside, gap, behind, hlast⟩ := ih hfound
        refine ⟨c :: inside, gap, behind, hlast.toBareAt.cons hc, ?_⟩
        intro inside' gap' name' behind' h'
        cases inside' with
        | nil => exact Nat.zero_le _
        | cons d inside' =>
          obtain ⟨_, hinside, h'⟩ := h'.of_cons (List.cons_ne_nil d inside')
          cases hinside
          exact Nat.succ_le_succ (hlast.last _ _ _ _ h')
      · rename_i hnone
        split at h
        · rename_i hhere
          cases h
          obtain ⟨rfl, hstart⟩ := hhere
          refine ⟨[], _, _, .of_start hstart, ?_⟩
          intro inside' gap' name' behind' h'
          cases inside' with
          | nil => exact Nat.le_refl _
          | cons d inside' =>
            -- there is none further on
            obtain ⟨_, _, h'⟩ := h'.of_cons (List.cons_ne_nil d inside')
            have hsome := isSome_bareBody h'
            rw [hnone] at hsome
            cases hsome
        · cases h

theorem isSome_bareBody_iff {body : List Char} :
    (bareBody body).isSome = true ↔ HasBare body := by
  constructor
  · intro h
    obtain ⟨name, hname⟩ := Option.isSome_iff_exists.1 h
    obtain ⟨inside, gap, behind, hlast⟩ := bareBody_eq body hname
    exact ⟨inside, gap, name, behind, hlast.toBareAt⟩
  · rintro ⟨_, _, _, _, h⟩
    exact isSome_bareBody h

/-- Only one name is the last. -/
theorem LastBare.unique {body inside gap name behind inside' gap' name' behind' : List Char}
    (h : LastBare body inside gap name behind) (h' : LastBare body inside' gap' name' behind') :
    name ++ behind = name' ++ behind' ∧ name = name' := by
  have hlength : inside.length = inside'.length :=
    Nat.le_antisymm (h'.last _ _ _ _ h.toBareAt) (h.last _ _ _ _ h'.toBareAt)
  obtain ⟨_, hrest⟩ := List.append_inj (h.split.symm.trans h'.split) hlength
  have hdrop := congrArg (List.dropWhile isBlank) (List.cons.inj hrest).2
  rw [h.dropWhile_blank, h'.dropWhile_blank] at hdrop
  refine ⟨hdrop, ?_⟩
  rw [← h.takeWhile_name, ← h'.takeWhile_name, hdrop]

end Bare

section Captures

/-- The keywords that have a body. -/
def bodyWords : List String := ["if", "while", "for"]

/-- What the pattern captures in a line: of the first head with a name behind a closing parenthesis,
the last such name. -/
def Captured (code front name behind : List Char) : Prop :=
  code = front ++ (name ++ behind) ∧ ∃ before body inside gap,
    HeadAt bodyWords code before body ∧ LastBare body inside gap name behind ∧
    ∀ before' body', HeadAt bodyWords code before' body' → HasBare body' →
      width before ≤ width before'

theorem startApart_bodyWords : StartApart bodyWords := by decide

theorem bodyWithoutBlock_iff {prev : Option Char} {cs name : List Char} :
    bodyWithoutBlock prev cs = some name ↔
      ∃ body, headOf bodyWords prev cs = some body ∧ bareBody body = some name := by
  rw [bodyWithoutBlock, bodyWords]
  cases headOf ["if", "while", "for"] prev cs <;> simp

theorem isSome_find_bodyWithoutBlock {code : List Char} :
    (find bodyWithoutBlock code).isSome = true ↔
      ∃ before body, HeadAt bodyWords code before body ∧ HasBare body := by
  rw [isSome_find_iff]
  constructor
  · rintro ⟨before, rest, hcode, hsome⟩
    obtain ⟨name, hname⟩ := Option.isSome_iff_exists.1 hsome
    obtain ⟨body, hhead, hbare⟩ := bodyWithoutBlock_iff.1 hname
    exact ⟨before, body, (headAt_iff startApart_bodyWords).2 ⟨rest, hcode, hhead⟩,
      isSome_bareBody_iff.1 (Option.isSome_iff_exists.2 ⟨name, hbare⟩)⟩
  · rintro ⟨before, body, hhead, hbare⟩
    obtain ⟨rest, hcode, hbody⟩ := (headAt_iff startApart_bodyWords).1 hhead
    obtain ⟨name, hname⟩ := Option.isSome_iff_exists.1 (isSome_bareBody_iff.2 hbare)
    exact ⟨before, rest, hcode,
      Option.isSome_iff_exists.2 ⟨name, bodyWithoutBlock_iff.2 ⟨body, hbody, hname⟩⟩⟩

/-- Where the pattern is found, it captures the name that is found. -/
theorem captured_of_find {code name : List Char} {k : Nat}
    (h : find bodyWithoutBlock code = some (k, name)) :
    ∃ front behind, Captured code front name behind := by
  obtain ⟨before, rest, hcode, hk, hmatch⟩ := search_split _ _ _ _ h
  rw [Option.or_none] at hmatch
  obtain ⟨body, hbody, hbare⟩ := bodyWithoutBlock_iff.1 hmatch
  obtain ⟨inside, gap, behind, hlast⟩ := bareBody_eq body hbare
  have hhead : HeadAt bodyWords code before body :=
    (headAt_iff startApart_bodyWords).2 ⟨rest, hcode, hbody⟩
  obtain ⟨w, _, gap', hcode', _⟩ := hhead.2
  refine ⟨before ++ (w.toList ++ (gap' ++ '(' :: (inside ++ ')' :: gap))), behind, ?_, before, body,
    inside, gap, hhead, hlast, ?_⟩
  · rw [hcode', hlast.split]
    simp only [List.append_assoc, List.cons_append]
  · intro before' body' hhead' hbare'
    obtain ⟨rest', hcode', hbody'⟩ := (headAt_iff startApart_bodyWords).1 hhead'
    obtain ⟨name', hname'⟩ := Option.isSome_iff_exists.1 (isSome_bareBody_iff.2 hbare')
    have hle := search_first _ h before' rest' hcode' (by
      rw [Option.or_none]
      exact Option.isSome_iff_exists.2 ⟨name', bodyWithoutBlock_iff.2 ⟨body', hbody', hname'⟩⟩)
    omega

theorem eq_of_width_eq {before rest before' rest' : List Char}
    (h : before ++ rest = before' ++ rest') (hwidth : width before = width before') :
    before = before' := by
  rcases List.append_eq_append_iff.1 h with ⟨between, rfl, _⟩ | ⟨between, rfl, _⟩
  all_goals
    rw [width_append] at hwidth
    obtain rfl : between = [] := eq_nil_of_width (by omega)
    rw [List.append_nil]

/-- The pattern captures one name in a line. -/
theorem Captured.unique {code front name behind front' name' behind' : List Char}
    (h : Captured code front name behind) (h' : Captured code front' name' behind') :
    front = front' ∧ name = name' := by
  obtain ⟨hcode, before, body, inside, gap, hhead, hlast, hfirst⟩ := h
  obtain ⟨hcode', before', body', inside', gap', hhead', hlast', hfirst'⟩ := h'
  have hwidth : width before = width before' :=
    Nat.le_antisymm (hfirst _ _ hhead' ⟨_, _, _, _, hlast'.toBareAt⟩)
      (hfirst' _ _ hhead ⟨_, _, _, _, hlast.toBareAt⟩)
  obtain ⟨rest, hrest, hbody⟩ := (headAt_iff startApart_bodyWords).1 hhead
  obtain ⟨rest', hrest', hbody'⟩ := (headAt_iff startApart_bodyWords).1 hhead'
  obtain rfl := eq_of_width_eq (hrest.symm.trans hrest') hwidth
  obtain rfl := List.append_cancel_left (hrest.symm.trans hrest')
  obtain rfl := Option.some.inj (hbody.symm.trans hbody')
  obtain ⟨hsame, hname⟩ := hlast.unique hlast'
  rw [hcode, hsame] at hcode'
  exact ⟨List.append_cancel_right hcode', hname⟩

/-- The name stands behind a closing parenthesis and white space. -/
theorem Captured.behind_parenthesis {code front name behind : List Char}
    (h : Captured code front name behind) :
    ∃ inside gap, front = inside ++ ')' :: gap ∧ ∀ c ∈ gap, isBlank c = true := by
  obtain ⟨hcode, before, body, inside, gap, hhead, hlast, _⟩ := h
  obtain ⟨w, _, gap', hcode', _⟩ := hhead.2
  refine ⟨before ++ (w.toList ++ (gap' ++ '(' :: inside)), gap, ?_, hlast.blank⟩
  refine List.append_cancel_right (hcode.symm.trans (hcode'.trans ?_))
  rw [hlast.split]
  simp only [List.append_assoc, List.cons_append]

end Captures

section Last

theorem lastColumn_split {w : List Char} (cs : List Char) : ∀ {col k : Nat},
    lastColumn w col cs = some k → ∃ before behind, cs = before ++ w ++ behind ∧
      k = col + width before := by
  induction cs with
  | nil =>
    intro col k h
    rw [lastColumn] at h
    obtain ⟨rfl, heq⟩ := Option.ite_none_right_eq_some.1 h
    cases heq
    exact ⟨[], [], rfl, rfl⟩
  | cons c cs ih =>
    intro col k h
    rw [lastColumn] at h
    split at h
    · rename_i hrest
      cases h
      obtain ⟨before, behind, rfl, rfl⟩ := ih hrest
      refine ⟨c :: before, behind, rfl, ?_⟩
      rw [width_cons]
      omega
    · obtain ⟨hstarts, heq⟩ := Option.ite_none_right_eq_some.1 h
      cases heq
      obtain ⟨behind, hbehind⟩ := List.isPrefixOf_iff_prefix.1 hstarts
      exact ⟨[], behind, hbehind.symm, rfl⟩

theorem le_lastColumn {w : List Char} (cs : List Char) : ∀ {col : Nat} {before behind : List Char},
    cs = before ++ w ++ behind → ∃ k, lastColumn w col cs = some k ∧ col + width before ≤ k := by
  induction cs with
  | nil =>
    intro col before behind h
    obtain ⟨hfront, -⟩ := List.append_eq_nil_iff.1 h.symm
    obtain ⟨rfl, rfl⟩ := List.append_eq_nil_iff.1 hfront
    exact ⟨col, rfl, Nat.le_refl _⟩
  | cons c cs ih =>
    intro col before behind h
    rw [lastColumn]
    cases before with
    | nil =>
      have hstarts : w.isPrefixOf (c :: cs) = true := List.isPrefixOf_iff_prefix.2 ⟨behind, h.symm⟩
      split
      · rename_i k hrest
        obtain ⟨before, _, _, rfl⟩ := lastColumn_split cs hrest
        rw [width_nil]
        exact ⟨_, rfl, by omega⟩
      · exact ⟨col, if_pos hstarts, Nat.le_refl _⟩
    | cons d before =>
      obtain ⟨rfl, hcs⟩ := List.cons.inj h
      obtain ⟨k, hk, hle⟩ := ih hcs
      rw [hk, width_cons]
      exact ⟨k, rfl, by omega⟩

/-- Of the columns at which characters stand in a line, the last is found. -/
theorem lastColumn_last {w code : List Char} {k : Nat} (h : HoldsAt k w code) :
    HoldsAt ((lastColumn w 0 code).getD 0) w code ∧
      ∀ j, HoldsAt j w code → j ≤ (lastColumn w 0 code).getD 0 := by
  have hle : ∀ {before behind : List Char}, code = before ++ w ++ behind →
      ∃ k, lastColumn w 0 code = some k ∧ 0 + width before ≤ k := le_lastColumn code
  constructor
  · obtain ⟨before, behind, hcode, _⟩ := h
    obtain ⟨k, hk, _⟩ := hle hcode
    obtain ⟨before, behind, hcode, rfl⟩ := lastColumn_split code hk
    rw [hk]
    exact ⟨before, behind, hcode, (Nat.zero_add _).symm⟩
  · rintro _ ⟨before, behind, hcode, rfl⟩
    obtain ⟨k, hk, hle⟩ := hle hcode
    rw [hk]
    exact Nat.zero_add (width before) ▸ hle

end Last

section Findings

def bodyReason (name : List Char) : String :=
  "Expected '\x7b' and instead saw " ++ Hint.quoted name ++ "."

/-- The row of the table for bodies gives the last column of the name. -/
theorem Hint.row_curly : ∃ r : LineRule, rules.filter (·.rule == .curly) = [r] ∧
    r.rule = .curly ∧ r.active = (fun on => on .curly) ∧
    ∀ code, r.check code = (find bodyWithoutBlock code).map fun e =>
      ((lastColumn e.2 0 code).getD 0, bodyReason e.2) := by
  refine ⟨_, rfl, rfl, rfl, fun code => ?_⟩
  dsimp only
  cases find bodyWithoutBlock code <;> rfl

/-- By the rule for bodies, the lenient edition finds the pattern, and gives the last column of the
name. -/
theorem Hint.makes_curly (on : Switches) : Makes .jshint on .curly fun _ m =>
    if on .curly then (find bodyWithoutBlock m.code).map fun e =>
      ((lastColumn e.2 0 m.code).getD 0, bodyReason e.2) else none := by
  obtain ⟨r, hrow, hrule, hactive, hcheck⟩ := row_curly
  have hmakes := makes_row (by rw [hrule]; exact hrow) (by rw [hcheck]; rfl) (by rw [hrule]; decide)
    (by rw [hrule]; decide) on
  simpa only [hrule, hactive, hcheck] using hmakes

end Findings

end ScriptLint.Analysis

namespace ScriptLint

open Text Engine Analysis

/-- When the lenient edition reports a body that is no block: with `curly` on, on every line that has,
as it is masked, the head of a statement and a name behind a closing parenthesis further on. The
reason names what the pattern captures, the last such name behind the first such head, and the column
is the last one of the line at which this name stands. So it is the column at which the name was
captured if, and only if, the name does not stand at any later column. So do the scripts of the
library report. -/
theorem bodies_reported (o : Options) (source : List Char) :
    ∃ fs : List Finding,
      bundledTrail .jshint o.switches source = fs.map some ∧
      (∀ path options text, handOver options text = .ok (o, source) →
        Reports .jshint path options text fs) ∧
      (∀ f ∈ fs, Rule.ofReason? f.reason = some f.rule) ∧
      (∀ k m, (maskLines (maskOf .jshint) false (lines source))[k]? = some m →
        ((∃ f ∈ fs, f.line = k ∧ f.rule = .curly) ↔
          o.isOn "curly" = true ∧ ∃ before body, HeadAt bodyWords m.code before body ∧ HasBare body)) ∧
      ∀ f ∈ fs, f.rule = .curly → ∃ m,
        (maskLines (maskOf .jshint) false (lines source))[f.line]? = some m ∧
        (∃ front name behind, Captured m.code front name behind) ∧
        ∀ front name behind, Captured m.code front name behind → f.reason = bodyReason name ∧
          HoldsAt f.column name m.code ∧ (∀ j, HoldsAt j name m.code → j ≤ f.column) ∧
          (f.column = width front ↔ ∀ j, HoldsAt j name m.code → j ≤ width front) := by
  have hmakes := Hint.makes_curly o.switches
  have htrail : bundledTrail .jshint o.switches source =
      (findingsOf .jshint o.switches source).map some := rfl
  refine ⟨_, htrail, ?_, fun f hf => told_findingsOf hf, ?_, ?_⟩
  · intro path options text hhand
    exact reports_trail hhand htrail
  · intro k m hm
    obtain ⟨text, htext⟩ := exists_line hm
    rw [hmakes.reported_iff (by decide) htext hm, ← isSome_find_bodyWithoutBlock]
    show _ ↔ o.switches .curly = true ∧ _
    cases o.switches .curly <;> simp
  · intro f hf hrule
    obtain ⟨m, _, hm, hnoticed⟩ := hmakes.noticed_of_mem (by decide) hf hrule
    obtain ⟨_, hsome⟩ := Option.ite_none_right_eq_some.1 hnoticed
    obtain ⟨⟨k, name⟩, hfind, heq⟩ := Option.map_eq_some_iff.1 hsome
    obtain ⟨hcolumn, hreason⟩ := Prod.mk.inj heq
    obtain ⟨front₀, behind₀, hcaptured₀⟩ := captured_of_find hfind
    refine ⟨m, hm, ⟨front₀, name, behind₀, hcaptured₀⟩, ?_⟩
    intro front name' behind hcaptured
    obtain ⟨-, rfl⟩ := hcaptured₀.unique hcaptured
    have hfront : HoldsAt (width front) name m.code :=
      ⟨front, behind, by rw [List.append_assoc]; exact hcaptured.1, rfl⟩
    obtain ⟨hholds, hlast⟩ := lastColumn_last hfront
    rw [hcolumn] at hholds hlast
    refine ⟨hreason.symm, hholds, hlast, ?_⟩
    constructor
    · intro hsame
      exact hsame ▸ hlast
    · intro hnone
      exact Nat.le_antisymm (hnone _ hholds) (hlast _ hfront)

/-- A line is reported at the second place where the name stands, in the arguments of the call that is
the body. -/
theorem body_named_again :
    handOver (optionsOn .curly) "if (x) y(y);" = .ok (objectOn .curly, "if (x) y(y);".toList) ∧
    bundledTrail .jshint (objectOn .curly).switches "if (x) y(y);".toList =
      [some ⟨.curly, 0, 9, bodyReason ['y'], "if (x) y(y);".toList⟩] ∧
    (∃ m front name behind,
      (maskLines (maskOf .jshint) false (lines "if (x) y(y);".toList))[0]? = some m ∧
      Captured m.code front name behind) ∧
    ∀ m front name behind,
      (maskLines (maskOf .jshint) false (lines "if (x) y(y);".toList))[0]? = some m →
      Captured m.code front name behind → width front ≠ 9 := by
  have hmask : (maskLines (maskOf .jshint) false (lines "if (x) y(y);".toList))[0]? =
      some ⟨"if (x) y(y);".toList, false⟩ := by decide
  refine ⟨handOver_on .curly _, by decide, ?_, ?_⟩
  · have hfind : find bodyWithoutBlock "if (x) y(y);".toList = some (0, ['y']) := by decide
    obtain ⟨front, behind, hcaptured⟩ := captured_of_find hfind
    exact ⟨_, front, _, behind, hmask, hcaptured⟩
  · intro m front name behind hm hcaptured hwidth
    obtain rfl := Option.some.inj (hm.symm.trans hmask)
    have hsplit : front ++ (name ++ behind) = "if (x) y(".toList ++ "y);".toList := hcaptured.1.symm
    have hfront : front = "if (x) y(".toList := eq_of_width_eq hsplit (by rw [hwidth]; decide)
    -- at the second place the name does not stand behind a closing parenthesis
    obtain ⟨inside, gap, hparenthesis, hgap⟩ := hcaptured.behind_parenthesis
    have hlast : (inside ++ ')' :: gap).getLast? = some '(' := by
      rw [← hparenthesis, hfront]
      decide
    rw [List.getLast?_append, List.getLast?_cons, Option.some_or, Option.some.injEq] at hlast
    cases hgap' : gap.getLast? with
    | none =>
      rw [hgap'] at hlast
      cases hlast
    | some c =>
      rw [hgap'] at hlast
      obtain rfl : c = '(' := hlast
      exact absurd (hgap _ (List.mem_of_getLast? hgap')) (by decide)

end ScriptLint
