import ScriptLint.Proofs.Editions
import ScriptLint.Proofs.Scanner

/-!
# ScriptLint.Proofs.MaskedSources

Rules do not see strings and comments. A source and its masked lines give the same findings, whatever
stands in strings and comments, apart from semicolons that are missing: whether one is depends on a
comment that is open behind the line.

* `masked_trimEnd`: white space at the end of a line does not matter to its mask
* `rendered_rescan`, `mask_mask`: a masked line is left as it is, and opens no comment
* `maskedSource`: the masked lines of a source as a source
* `lines_joinLines`: a text of lines has these lines
* `walk_masked`: from the check of a line to all lines of a source
* `masked_sources_agree`: the records of the scripts of the library
-/

namespace ScriptLint.Analysis

open ScriptLint.Text

section Trailing

/-- White space neither opens nor closes a comment, and only white space is left of it. -/
theorem step_blank (r : Region) {c : Char} (hc : isBlank c = true) :
    (r.step c).2.isBlockComment = r.isBlockComment ∧
      ∀ d ∈ ScannedLine.shown (c, (r.step c).1), isBlank d = true := by
  constructor
  · cases r with
    | code =>
      show Region.isBlockComment (if isQuote c then .quoted c else .code) = false
      split <;> rfl
    | quoted q => obtain h | h | h := step_quoted_cases q c <;> rw [h] <;> rfl
    | _ => rfl
  · generalize (r.step c).1 = kept
    intro d hd
    cases kept with
    | false => exact isBlank_blanks hd
    | true =>
      rw [List.mem_singleton.1 hd]
      exact hc

/-- Nothing is left of white space. -/
theorem masked_of_blank {cs : List Char} (h : ∀ c ∈ cs, isBlank c = true) : ∀ r : Region,
    (scanLine r cs).masked = ⟨[], r.isBlockComment⟩ := by
  induction cs with
  | nil => intro r; rfl
  | cons c cs ih =>
    intro r
    obtain ⟨hc, hcs⟩ := List.forall_mem_cons.1 h
    obtain ⟨hregion, hshown⟩ := step_blank r hc
    have hrest : (scanLine (r.step c).2 cs).masked = Masked.trimmed ⟨[], r.isBlockComment⟩ := by
      rw [ih hcs, hregion]
      rfl
    rw [(Unpaired.of_blank hc).masked_cons hrest]
    refine trimmed_of_blank (n := ⟨[], r.isBlockComment⟩) ?_ nofun rfl
    rwa [Masked.prepend_code, List.append_nil]

/-- White space at the end of a line does not matter to what is left of it. -/
theorem masked_append_blank {tail : List Char} (htail : ∀ c ∈ tail, isBlank c = true) (r : Region)
    (cs : List Char) : (scanLine r (cs ++ tail)).masked = (scanLine r cs).masked := by
  fun_induction scanLine r cs with
  | case1 r => exact masked_of_blank htail r
  | case2 cs ih => exact ScannedLine.masked_put ih _
  | case3 cs ih => exact ScannedLine.masked_put ih _
  | case4 cs ih => exact ScannedLine.masked_put ih _
  | case5 r c cs hline hopen hclose ih =>
    have hunpaired : Unpaired r c (cs ++ tail) := by
      refine Unpaired.of_next ⟨hline, hopen, hclose⟩ ?_
      intro d rest hd heq
      cases cs with
      | nil =>
        have hmem : d ∈ tail := by
          rw [show tail = d :: rest from heq]
          exact List.mem_cons_self
        rw [htail d hmem] at hd
        cases hd
      | cons x xs =>
        cases heq
        exact ⟨xs, rfl⟩
    rw [List.cons_append, hunpaired.masked_cons ih, ← flatMap_shown]
    exact (ScannedLine.masked_put rfl _).symm

theorem masked_trimEnd (r : Region) (cs : List Char) :
    (scanLine r (trimEnd isBlank cs)).masked = (scanLine r cs).masked := by
  obtain ⟨tail, hcs, htail⟩ := trimEnd_append_dropped isBlank cs
  have happend := masked_append_blank htail r (trimEnd isBlank cs)
  rw [← hcs] at happend
  exact happend.symm

end Trailing

section Rescan

/-- Strings are between quotes. -/
def Region.Proper : Region → Prop
  | .quoted q => isQuote q = true
  | .escaped q => isQuote q = true
  | _ => True

/-- Where a scanner of the masked line is, where that of the line is in a region. -/
def Region.onMask : Region → Region
  | .quoted q => .quoted q
  | .escaped q => .quoted q
  | _ => .code

theorem Region.Proper.step {r : Region} (h : r.Proper) (c : Char) : (r.step c).2.Proper := by
  cases r with
  | code =>
    show Proper (if isQuote c then .quoted c else .code)
    split
    · assumption
    · trivial
  | quoted q =>
    obtain hstep | hstep | hstep := step_quoted_cases q c <;> rw [hstep]
    · exact h
    · trivial
    · exact h
  | escaped q => exact h
  | lineComment => trivial
  | blockComment => trivial

theorem isQuote_ne {q c : Char} (h : isQuote q = true) (hc : isQuote c = false) : c ≠ q := by
  rintro rfl
  rw [h] at hc
  cases hc

theorem Unpaired.rendered_cons {r : Region} {c : Char} {cs : List Char} (h : Unpaired r c cs) :
    (scanLine r (c :: cs)).rendered = (scanLine (r.step c).2 cs).rendered.prepend
      (if (r.step c).1 then [c] else blanks c) := by
  rw [h.scanLine_cons, ScannedLine.rendered_put, flatMap_shown]

theorem Region.Proper.step_space {r : Region} (h : r.Proper) :
    (r.onMask.step ' ').2 = r.onMask := by
  have hspace : ∀ {q}, isQuote q = true → (Region.quoted q).step ' ' = (false, .quoted q) :=
    fun hq => step_quoted_other (by decide) (isQuote_ne hq (by decide))
  cases r with
  | quoted q => rw [Region.onMask, hspace h]
  | escaped q => rw [Region.onMask, hspace h]
  | _ => rfl

/-- Spaces are left as they are, and the scanner stays where it is. -/
theorem rendered_spaces {r : Region} (h : r.Proper) (n : Nat) (cs : List Char) :
    (scanLine r.onMask (List.replicate n ' ' ++ cs)).rendered =
      (scanLine r.onMask cs).rendered.prepend (List.replicate n ' ') := by
  induction n with
  | zero => rfl
  | succ n ih =>
    have hshown : ∀ kept : Bool, (if kept then [' '] else blanks ' ') = [' '] := by decide
    have hunpaired : Unpaired r.onMask ' ' (List.replicate n ' ' ++ cs) := .of_blank (by decide)
    rw [List.replicate_succ, List.cons_append, hunpaired.rendered_cons, h.step_space, ih, hshown]
    rfl

/-- What is left of a line starts as the line does, or by a space. -/
theorem head_rendered {r : Region} {d : Char} {cs rest : List Char}
    (h : (scanLine r cs).rendered.code = d :: rest) : d = ' ' ∨ ∃ cs', cs = d :: cs' := by
  have hhidden : ∀ {c : Char} {xs}, blanks c ++ xs = d :: rest → d = ' ' := by
    intro c xs heq
    have hmem : d ∈ blanks c := by
      obtain ⟨n, hn⟩ := Nat.exists_eq_succ_of_ne_zero (Nat.ne_of_gt (units_pos c))
      rw [blanks, hn, List.replicate_succ, List.cons_append] at heq
      rw [blanks, hn, List.replicate_succ, (List.cons.inj heq).1]
      exact List.mem_cons_self
    exact List.eq_of_mem_replicate hmem
  revert h
  fun_cases scanLine r cs with
  | case1 => nofun
  | case2 cs => exact fun h => .inl (hhidden (c := '/') h)
  | case3 cs => exact fun h => .inl (hhidden (c := '/') h)
  | case4 cs => exact fun h => .inl (hhidden (c := '*') h)
  | case5 c _ _ _ _ =>
    rw [ScannedLine.rendered_put, flatMap_shown, Masked.prepend_code]
    split
    · intro h
      cases h
      exact .inr ⟨_, rfl⟩
    · exact fun h => .inl (hhidden h)

/-- A kept character is scanned in the masked line as it is in the line. -/
theorem onMask_of_kept {r : Region} {c : Char} (h : (r.step c).1 = true) :
    r.onMask = r ∧ (r.step c).2.onMask = (r.step c).2 := by
  cases r with
  | code =>
    refine ⟨rfl, ?_⟩
    rw [Region.step]
    dsimp only
    split <;> rfl
  | quoted q =>
    obtain hstep | hstep | hstep := step_quoted_cases q c
    · rw [hstep] at h; cases h
    · rw [hstep]; exact ⟨rfl, rfl⟩
    · rw [hstep] at h; cases h
  | _ => cases h

/-- Where a character is hidden, the scanner of the masked line stays where it is. -/
theorem onMask_of_hidden {r : Region} {c : Char} (h : (r.step c).1 = false) :
    (r.step c).2.onMask = r.onMask := by
  cases r with
  | code => cases h
  | quoted q =>
    obtain hstep | hstep | hstep := step_quoted_cases q c
    · rw [hstep]; rfl
    · rw [hstep] at h; cases h
    · rw [hstep]
  | _ => rfl

theorem rescan_spaces {r : Region} (h : r.Proper) {code : List Char}
    (hcode : (scanLine r.onMask code).rendered = ⟨code, false⟩) (n : Nat) :
    (scanLine r.onMask (List.replicate n ' ' ++ code)).rendered =
      ⟨List.replicate n ' ' ++ code, false⟩ := by
  rw [rendered_spaces h, hcode]
  rfl

/-- What is left of a line is left as it is when it is scanned once more. -/
theorem rendered_rescan {r : Region} (h : r.Proper) (cs : List Char) :
    (scanLine r.onMask (scanLine r cs).rendered.code).rendered =
      ⟨(scanLine r cs).rendered.code, false⟩ := by
  fun_induction scanLine r cs with
  | case1 r => cases r <;> rfl
  | case2 cs ih => exact rescan_spaces (r := .code) trivial (ih trivial) 2
  | case3 cs ih => exact rescan_spaces (r := .code) trivial (ih trivial) 2
  | case4 cs ih => exact rescan_spaces (r := .code) trivial (ih trivial) 2
  | case5 r c cs hline hopen hclose ih =>
    have hrest := ih (h.step c)
    rw [ScannedLine.rendered_put, flatMap_shown, Masked.prepend_code]
    cases hkept : (r.step c).1 with
    | false =>
      rw [onMask_of_hidden hkept] at hrest
      exact rescan_spaces h hrest (units c)
    | true =>
      obtain ⟨hstay, hstay'⟩ := onMask_of_kept hkept
      have hunpaired : Unpaired r c (scanLine (r.step c).2 cs).rendered.code := by
        refine Unpaired.of_next ⟨hline, hopen, hclose⟩ ?_
        intro d rest hd heq
        refine (head_rendered heq).resolve_left ?_
        rintro rfl
        cases hd
      rw [hstay'] at hrest
      rw [hstay, if_pos rfl, List.singleton_append, hunpaired.rendered_cons, hrest, hkept]
      rfl

/-- What is left of a line is left as it is when it is masked once more, and opens no comment. -/
theorem mask_mask (v : Variant) (inComment : Bool) (line : List Char) :
    maskOf v false (maskOf v inComment line).code = ⟨(maskOf v inComment line).code, false⟩ := by
  have hproper : (Region.atStart inComment).Proper := by cases inComment <;> trivial
  have hstart : (Region.atStart inComment).onMask = .atStart false := by cases inComment <;> rfl
  have hagain := rendered_rescan hproper line
  rw [hstart] at hagain
  rw [maskOf_eq, mask_eq_scanLine, mask_eq_scanLine]
  show (scanLine (.atStart false)
    (trimEnd isBlank (scanLine (.atStart inComment) line).rendered.code)).masked = _
  rw [masked_trimEnd, ScannedLine.masked, hagain]
  rfl

end Rescan

section Joined

/-- Characters of which none ends a line. -/
def OnLine (l : List Char) : Prop := ∀ c ∈ l, ¬(c = '\n' ∨ c = '\r')

theorem mem_lines (cs : List Char) : ∀ l ∈ lines cs, OnLine l ∧ l ⊆ cs := by
  fun_induction lines cs with
  | case1 =>
    intro l hl
    rw [List.mem_singleton.1 hl]
    exact ⟨List.forall_mem_nil _, List.nil_subset _⟩
  | case2 cs ih =>
    intro l hl
    rcases List.mem_cons.1 hl with rfl | hl
    · exact ⟨List.forall_mem_nil _, List.nil_subset _⟩
    · obtain ⟨honline, hsub⟩ := ih l hl
      exact ⟨honline, List.subset_cons_of_subset _ (List.subset_cons_of_subset _ hsub)⟩
  | case3 c cs _ _ ih =>
    intro l hl
    rcases List.mem_cons.1 hl with rfl | hl
    · exact ⟨List.forall_mem_nil _, List.nil_subset _⟩
    · obtain ⟨honline, hsub⟩ := ih l hl
      exact ⟨honline, List.subset_cons_of_subset _ hsub⟩
  | case4 c cs _ hend ih =>
    intro l hl
    obtain ⟨first, rest, hlines⟩ := List.exists_cons_of_ne_nil (lines_ne_nil cs)
    rw [hlines] at hl ih
    rcases List.mem_cons.1 hl with rfl | hl
    · obtain ⟨honline, hsub⟩ := ih first List.mem_cons_self
      exact ⟨List.forall_mem_cons.2 ⟨hend, honline⟩, List.cons_subset_cons _ hsub⟩
    · obtain ⟨honline, hsub⟩ := ih l (List.mem_cons_of_mem _ hl)
      exact ⟨honline, List.subset_cons_of_subset _ hsub⟩

theorem lines_single {l : List Char} (h : OnLine l) : lines l = [l] := by
  induction l with
  | nil => rfl
  | cons c l ih =>
    obtain ⟨hc, hl⟩ := List.forall_mem_cons.1 h
    rw [lines_cons hc, ih hl]
    rfl

theorem lines_append {l : List Char} (h : OnLine l) (cs : List Char) :
    lines (l ++ '\n' :: cs) = l :: lines cs := by
  induction l with
  | nil => rfl
  | cons c l ih =>
    obtain ⟨hc, hl⟩ := List.forall_mem_cons.1 h
    rw [List.cons_append, lines_cons hc, ih hl]
    rfl

/-- A text of lines has these lines. -/
theorem lines_joinLines {ls : List (List Char)} (h : ∀ l ∈ ls, OnLine l) (hls : ls ≠ []) :
    lines (joinLines ls) = ls := by
  fun_induction joinLines ls with
  | case1 => exact absurd rfl hls
  | case2 l => exact lines_single (h l List.mem_cons_self)
  | case3 l ls hne ih =>
    obtain ⟨hl, hrest⟩ := List.forall_mem_cons.1 h
    rw [lines_append hl, ih hrest hne]

theorem mem_joinLines {c : Char} {ls : List (List Char)} (h : c ∈ joinLines ls) :
    c = '\n' ∨ ∃ l ∈ ls, c ∈ l := by
  fun_induction joinLines ls with
  | case1 => cases h
  | case2 l => exact .inr ⟨l, List.mem_cons_self, h⟩
  | case3 l ls _ ih =>
    rcases List.mem_append.1 h with h | h
    · exact .inr ⟨l, List.mem_cons_self, h⟩
    · rcases List.mem_cons.1 h with h | h
      · exact .inl h
      · exact (ih h).imp id fun ⟨l', hl', hc⟩ => ⟨l', List.mem_cons_of_mem _ hl', hc⟩

/-- What is left of a line are characters of it, and spaces. -/
theorem mem_masked {v : Variant} {inComment : Bool} {line : List Char} {c : Char}
    (h : c ∈ (maskOf v inComment line).code) : c ∈ line ∨ c = ' ' := by
  rw [maskOf_eq, mask_eq_scanLine] at h
  obtain ⟨tail, hrendered, _⟩ := trimEnd_append_dropped isBlank
    (scanLine (.atStart inComment) line).rendered.code
  have hmem : c ∈ (scanLine (.atStart inComment) line).rendered.code := by
    rw [hrendered]
    exact List.mem_append_left _ h
  obtain ⟨⟨d, kept⟩, hmark, hc⟩ := List.mem_flatMap.1 hmem
  cases kept with
  | true =>
    refine .inl ?_
    rw [List.mem_singleton.1 hc, ← text_scanLine (.atStart inComment) line]
    exact List.mem_map_of_mem hmark
  | false => exact .inr (List.eq_of_mem_replicate hc)

/-- The masked lines of a source as a source. -/
def maskedSource (v : Variant) (source : List Char) : List Char :=
  joinLines ((maskLines (maskOf v) false (lines source)).map Masked.code)

theorem mem_maskLines {mask : Bool → List Char → Masked} {m : Masked} {texts : List (List Char)} :
    ∀ {inComment : Bool}, m ∈ maskLines mask inComment texts →
      ∃ b, ∃ text ∈ texts, m = mask b text := by
  induction texts with
  | nil => nofun
  | cons text texts ih =>
    intro inComment h
    rcases List.mem_cons.1 h with rfl | h
    · exact ⟨inComment, text, List.mem_cons_self, rfl⟩
    · obtain ⟨b, text', hmem, rfl⟩ := ih h
      exact ⟨b, text', List.mem_cons_of_mem _ hmem, rfl⟩

/-- A masked line of a source is on one line, and of the characters of the source and spaces. -/
theorem mem_maskedLines {v : Variant} {source l : List Char}
    (h : l ∈ (maskLines (maskOf v) false (lines source)).map Masked.code) :
    OnLine l ∧ ∀ c ∈ l, c ∈ source ∨ c = ' ' := by
  obtain ⟨m, hm, rfl⟩ := List.mem_map.1 h
  obtain ⟨b, text, htext, rfl⟩ := mem_maskLines hm
  obtain ⟨honline, hsub⟩ := mem_lines source text htext
  constructor
  · intro c hc
    rcases mem_masked hc with hc | rfl
    · exact honline c hc
    · decide
  · intro c hc
    exact (mem_masked hc).imp (fun hc => hsub hc) id

theorem lines_maskedSource (v : Variant) (source : List Char) :
    lines (maskedSource v source) =
      (maskLines (maskOf v) false (lines source)).map Masked.code := by
  refine lines_joinLines (fun l hl => (mem_maskedLines hl).1) ?_
  obtain ⟨first, rest, hlines⟩ := List.exists_cons_of_ne_nil (lines_ne_nil source)
  rw [hlines]
  exact nofun

theorem nul_maskedSource {v : Variant} {source : List Char} (h : '\x00' ∉ source) :
    '\x00' ∉ maskedSource v source := by
  intro hmem
  obtain heq | ⟨l, hl, hc⟩ := mem_joinLines hmem
  · cases heq
  · obtain hc | heq := (mem_maskedLines hl).2 _ hc
    · exact h hc
    · cases heq

end Joined

section Remarks

def missingSemicolon : String := "Missing semicolon."

/-- What a finding says apart from the line that it shows. -/
abbrev Remark := Nat × Nat × String

/-- What findings say, but for missing semicolons. -/
def remarks (fs : List Finding) : List Remark :=
  (fs.filter (·.reason != missingSemicolon)).map fun f => (f.line, f.column, f.reason)

theorem remarks_append (fs gs : List Finding) : remarks (fs ++ gs) = remarks fs ++ remarks gs := by
  rw [remarks, List.filter_append, List.map_append]
  rfl

/-- What is said of a line where something is found in it. -/
def remarkOf (active : Bool) (line : Nat) (found : Option (Nat × String)) : List Remark :=
  if active then (found.toList.filter (·.2 != missingSemicolon)).map (line, ·) else []

theorem remarks_ite (active : Bool) (f : Finding) :
    remarks (if active then [f] else []) = remarkOf active f.line (some (f.column, f.reason)) := by
  cases active with
  | false => rfl
  | true =>
    cases hsaid : f.reason != missingSemicolon <;> simp [remarks, remarkOf, hsaid]

theorem remarkOf_semicolon (active : Bool) (line column : Nat) :
    remarkOf active line (some (column, "Missing semicolon.")) = [] := by
  cases active <;> simp [remarkOf, missingSemicolon]

theorem remarks_report {α : Type} (active : Bool) (rule : Rule) (line : Nat) (text : List Char)
    (found : Option (Nat × α)) (reason : α → String) :
    remarks (Lint.report active rule line text found reason) =
      remarkOf active line (found.map fun e => (e.1, reason e.2)) := by
  cases found with
  | none => cases active <;> rfl
  | some found =>
    have hite : Lint.report active rule line text (some found) reason =
        if active then [⟨rule, line, found.1, reason found.2, text⟩] else [] := by
      cases active <;> rfl
    rw [hite, remarks_ite]
    rfl

theorem remarks_apply (r : Hint.LineRule) (on : Switches) (line : Nat) (text code : List Char) :
    remarks (r.apply on line text code) = remarkOf (r.active on) line (r.check code) := by
  rw [Hint.LineRule.apply]
  cases r.check code with
  | none => cases r.active on <;> rfl
  | some found => exact remarks_ite _ _

theorem remarks_rules (rs : List Hint.LineRule) (on : Switches) (line : Nat)
    (text code : List Char) :
    remarks (rs.flatMap (·.apply on line text code)) =
      rs.flatMap fun r => remarkOf (r.active on) line (r.check code) := by
  induction rs with
  | nil => rfl
  | cons r rs ih => rw [List.flatMap_cons, remarks_append, remarks_apply, ih, List.flatMap_cons]

/-- Findings on one line that say the same wherever as much is left of it. -/
def ByCode (check : Nat → List Char → Masked → List Finding) : Prop :=
  ∀ line text text' m m', m.code = m'.code →
    remarks (check line text m) = remarks (check line text' m')

variable {on : Switches}

theorem Lint.byCode (hwhite : on .white = false) : ByCode (lineFindings on) := by
  intro line text text' m m' h
  rw [lineFindings, lineFindings, h, hwhite]
  split
  · rfl
  · simp only [remarks_append, remarks_report, Option.map_some, remarkOf_semicolon,
      Bool.false_and]

theorem Hint.byCode (hwhite : on .white = false) : ByCode (lineFindings on) := by
  intro line text text' m m' h
  rw [lineFindings, lineFindings, h, hwhite]
  split
  · rfl
  · simp only [remarks_append, remarks_rules, remarks_ite, remarkOf_semicolon, Bool.false_and]

/-- The findings on a text and on its masked lines say the same. -/
theorem walk_masked (v : Variant) {check : Nat → List Char → Masked → List Finding}
    (hcheck : ByCode check) (texts : List (List Char)) : ∀ (inComment : Bool) (line : Nat),
      remarks (walk (maskOf v) check inComment line texts) =
        remarks (walk (maskOf v) check false line
          ((maskLines (maskOf v) inComment texts).map Masked.code)) := by
  induction texts with
  | nil => intro inComment line; rfl
  | cons text texts ih =>
    intro inComment line
    rw [walk, maskLines, List.map_cons, walk, mask_mask, remarks_append, remarks_append, ih]
    exact congrArg (· ++ _) (hcheck line _ _ _ _ rfl)

end Remarks

/-- The rules of an edition on one line. -/
def checkOf (v : Variant) (on : Switches) : Nat → List Char → Masked → List Finding :=
  match v with
  | .jslint => Lint.lineFindings on
  | .jshint => Hint.lineFindings on

theorem checkOf_byCode {v : Variant} {on : Switches} (hwhite : on .white = false) :
    ByCode (checkOf v on) := by
  cases v with
  | jslint => exact Lint.byCode hwhite
  | jshint => exact Hint.byCode hwhite

/-- What an edition leaves behind where it neither looks at the whole text nor gives up. -/
theorem bundledTrail_walk {v : Variant} {on : Switches} (hstrict : on .strict = false)
    (hpassfail : v = .jslint → on .passfail = false) (source : List Char) :
    bundledTrail v on source =
      (walk (maskOf v) (checkOf v on) false 0 (lines source)).map some := by
  cases v with
  | jslint =>
    rw [bundledTrail, Lint.trail, hpassfail rfl, if_neg Bool.false_ne_true, Lint.findings,
      Lint.strictFindings, hstrict, Bool.false_and, if_neg Bool.false_ne_true, List.nil_append]
    rfl
  | jshint =>
    rw [bundledTrail, Hint.findings, hstrict, Bool.false_and, if_neg Bool.false_ne_true,
      List.nil_append]
    rfl

end ScriptLint.Analysis

namespace ScriptLint

open Text Engine Analysis

/-- Strings and comments are invisible. With `strict` and `white` off, and for the strict edition
`passfail` too, an edition says the same of a source and of its masked lines as a source: the same
reasons at the same lines and columns in the same order, apart from missing semicolons. So do the
scripts of the library, for all options and texts by which they are called in this way. A line that
is masked once more stays as it is, and opens no comment. -/
theorem masked_sources_agree (v : Variant) (o : Options) (source : List Char)
    (hstrict : o.isOn "strict" = false) (hwhite : o.isOn "white" = false)
    (hpassfail : v = .jslint → o.isOn "passfail" = false) :
    ∃ written masked : List Finding,
      bundledTrail v o.switches source = written.map some ∧
      bundledTrail v o.switches (maskedSource v source) = masked.map some ∧
      remarks written = remarks masked ∧
      (∀ path options text, handOver options text = .ok (o, source) →
        Reports v path options text written ∧
        Reports v path options (String.ofList (maskedSource v source)) masked) ∧
      ∀ inComment line, maskOf v false (maskOf v inComment line).code =
        ⟨(maskOf v inComment line).code, false⟩ := by
  have hbyCode : ByCode (checkOf v o.switches) := checkOf_byCode hwhite
  have htrail : ∀ src, bundledTrail v o.switches src =
      (walk (maskOf v) (checkOf v o.switches) false 0 (lines src)).map some :=
    bundledTrail_walk hstrict hpassfail
  have hsame := walk_masked v hbyCode (lines source) false 0
  rw [← lines_maskedSource] at hsame
  refine ⟨_, _, htrail source, htrail (maskedSource v source), hsame, ?_, mask_mask v⟩
  intro path options text hhand
  refine ⟨reports_trail hhand (htrail source), reports_trail ?_ (htrail (maskedSource v source))⟩
  obtain ⟨hwritten, hassign, rfl⟩ := handOver_eq_ok_iff.1 hhand
  have hnul : '\x00' ∉ untilNul text.toList := by
    intro hmem
    cases mem_takeWhile hmem
  refine handOver_eq_ok_iff.2 ⟨hwritten, hassign, ?_⟩
  rw [String.toList_ofList, untilNul_of_not_mem (nul_maskedSource hnul)]

def laxOptions : List (String × Value) :=
  [("strict", .null), ("white", .str ""), ("passfail", .bool false), ("eqeqeq", .bool true)]

def laxObject : Options :=
  ⟨[("strict", .null), ("white", .str ""), ("passfail", .bool false), ("eqeqeq", .bool true)], []⟩

theorem handOver_lax : handOver laxOptions "a == 'b == c' /*\n*/d" =
    .ok (laxObject, "a == 'b == c' /*\n*/d".toList) := by
  have hnull : Datum.parse Value.null.toJson.encode = .ok .null := by
    rw [parse_encode]
    rfl
  have hstr : Datum.parse (Value.str "").toJson.encode = .ok (.str "") := by
    rw [parse_encode]
    rfl
  have hpairs : Mapping.ofPairs laxOptions = laxOptions := rfl
  have hwritten : allWritable laxOptions = true := by decide
  rw [handOver_eq, if_pos hwritten, hpairs]
  simp only [laxOptions, assignValues, hnull, hstr, parse_bool]
  rfl

theorem masked_sources_agree_lax :
    ∃ written masked : List Finding,
      Reports .jslint (Path.parse "jslint.js") laxOptions "a == 'b == c' /*\n*/d" written ∧
      Reports .jslint (Path.parse "jslint.js") laxOptions "a == '      '\n  d" masked ∧
      remarks written = remarks masked := by
  obtain ⟨written, masked, _, _, hsame, hreports, _⟩ := masked_sources_agree .jslint laxObject
    "a == 'b == c' /*\n*/d".toList (by decide) (by decide) (fun _ => by decide)
  obtain ⟨hwritten, hmasked⟩ := hreports (Path.parse "jslint.js") _ _ handOver_lax
  have htext : String.ofList (maskedSource .jslint "a == 'b == c' /*\n*/d".toList) =
      "a == '      '\n  d" := by decide
  rw [htext] at hmasked
  exact ⟨written, masked, hwritten, hmasked, hsame⟩

end ScriptLint
