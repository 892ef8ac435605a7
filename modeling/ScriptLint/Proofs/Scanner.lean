import ScriptLint.Analysis.Walk
import ScriptLint.Choice
import ScriptLint.Proofs.Columns
import ScriptLint.Text.Lines

/-!
# ScriptLint.Proofs.Scanner

Masking is exact. A scanner that goes through a whole source once, with no notion of a line but that
its end ends strings and line comments, says of every character whether it is code. Either edition,
line by line, keeps in place what is code, and puts blanks for all else.

* `scan`: the scanner, with the marks that it leaves on every line
* `maskLines`: the masked lines of a text, each from where the lines before it leave off
* `scan_eq_scanLines`: the scanner, line by line
* `Unpaired`: a character that is no part of a comment's mark
* `mask_eq_scanLine`: a masked line is what the scanner leaves of it
* `text_scan`, `maskLines_eq_scan`: the lines of a source, as they are written and as they are masked
* `masks_exact`: both editions on a whole source
-/

namespace ScriptLint.Analysis

open ScriptLint.Text

section Scanner

/-- Where a scanner of a source is. -/
inductive Region where
  | code
  | quoted (quote : Char)
  /-- In a string, right behind a backslash. -/
  | escaped (quote : Char)
  | lineComment
  | blockComment
  deriving DecidableEq, Repr

namespace Region

def isBlockComment : Region → Bool
  | .blockComment => true
  | _ => false

/-- Where the scanner is after the end of a line. -/
def afterLine : Region → Region
  | .blockComment => .blockComment
  | _ => .code

/-- Whether a character is kept, and where the scanner is behind it. -/
def step : Region → Char → Bool × Region
  | .code, c => (true, if isQuote c then .quoted c else .code)
  | .quoted q, c =>
    if c = '\\' then (false, .escaped q) else if c = q then (true, .code) else (false, .quoted q)
  | .escaped q, _ => (false, .quoted q)
  | .lineComment, _ => (false, .lineComment)
  | .blockComment, _ => (false, .blockComment)

end Region

/-- A line as it was scanned: its characters, each with whether it is kept, and whether a block
comment is open at its end. -/
structure ScannedLine where
  marks : List (Char × Bool)
  inComment : Bool
  deriving DecidableEq, Repr

namespace ScannedLine

/-- The line as it is written. -/
def text (l : ScannedLine) : List Char := l.marks.map Prod.fst

/-- What is left of a character: itself, or as many spaces as it has code units. -/
def shown (mark : Char × Bool) : List Char := if mark.2 then [mark.1] else blanks mark.1

/-- What is left of the line, in its columns. -/
def rendered (l : ScannedLine) : Masked := ⟨l.marks.flatMap shown, l.inComment⟩

/-- What is left of the line, without white space at its end. -/
def masked (l : ScannedLine) : Masked := l.rendered.trimmed

def put (ms : List (Char × Bool)) (l : ScannedLine) : ScannedLine := ⟨ms ++ l.marks, l.inComment⟩

/-- Puts marks in front of the first line. -/
def putFirst (ms : List (Char × Bool)) : List ScannedLine → List ScannedLine
  | [] => []
  | l :: ls => l.put ms :: ls

end ScannedLine

open ScannedLine (putFirst)

/-- The lines of a source from some region on. The two characters that open a line comment, and those
that open or close a block comment, are taken together. -/
def scan : Region → List Char → List ScannedLine
  | r, [] => [⟨[], r.isBlockComment⟩]
  | r, '\r' :: '\n' :: cs => ⟨[], r.isBlockComment⟩ :: scan r.afterLine cs
  | .code, '/' :: '/' :: cs => putFirst [('/', false), ('/', false)] (scan .lineComment cs)
  | .code, '/' :: '*' :: cs => putFirst [('/', false), ('*', false)] (scan .blockComment cs)
  | .blockComment, '*' :: '/' :: cs => putFirst [('*', false), ('/', false)] (scan .code cs)
  | r, c :: cs =>
    if c = '\n' ∨ c = '\r' then ⟨[], r.isBlockComment⟩ :: scan r.afterLine cs
    else putFirst [(c, (r.step c).1)] (scan (r.step c).2 cs)

example : (scan .code "a'\\'/*' /*/ b*/c//d\r/*".toList).map ScannedLine.masked =
    [⟨"a'    '        c".toList, false⟩, ⟨[], true⟩] := by decide

end Scanner

section Lines

/-- A single line from some region on. -/
def scanLine : Region → List Char → ScannedLine
  | r, [] => ⟨[], r.isBlockComment⟩
  | .code, '/' :: '/' :: cs => (scanLine .lineComment cs).put [('/', false), ('/', false)]
  | .code, '/' :: '*' :: cs => (scanLine .blockComment cs).put [('/', false), ('*', false)]
  | .blockComment, '*' :: '/' :: cs => (scanLine .code cs).put [('*', false), ('/', false)]
  | r, c :: cs => (scanLine (r.step c).2 cs).put [(c, (r.step c).1)]

/-- A character that does not open or close a comment together with the one behind it. -/
structure Unpaired (r : Region) (c : Char) (cs : List Char) : Prop where
  line : ∀ cs', r = .code → c = '/' → cs = '/' :: cs' → False
  opening : ∀ cs', r = .code → c = '/' → cs = '*' :: cs' → False
  closing : ∀ cs', r = .blockComment → c = '*' → cs = '/' :: cs' → False

namespace Unpaired

variable {r : Region} {c : Char} {cs : List Char}

/-- Whether a character is one of a pair depends on what stands behind it, if that is not blank. -/
theorem of_next (h : Unpaired r c cs) {cs' : List Char}
    (hnext : ∀ {d rest}, isBlank d = false → cs' = d :: rest → ∃ rest', cs = d :: rest') :
    Unpaired r c cs' := by
  have hslash : isBlank '/' = false := by decide
  have hstar : isBlank '*' = false := by decide
  constructor
  · intro rest hr hc heq
    obtain ⟨rest', hrest'⟩ := hnext hslash heq
    exact h.line rest' hr hc hrest'
  · intro rest hr hc heq
    obtain ⟨rest', hrest'⟩ := hnext hstar heq
    exact h.opening rest' hr hc hrest'
  · intro rest hr hc heq
    obtain ⟨rest', hrest'⟩ := hnext hslash heq
    exact h.closing rest' hr hc hrest'

theorem of_blank (h : isBlank c = true) : Unpaired r c cs := by
  have hslash : c ≠ '/' := by rintro rfl; cases h
  have hstar : c ≠ '*' := by rintro rfl; cases h
  exact ⟨fun _ _ hc => absurd hc hslash, fun _ _ hc => absurd hc hslash,
    fun _ _ hc => absurd hc hstar⟩

/-- In strings and line comments there are no pairs. -/
theorem inside (hcode : r ≠ .code) (hcomment : r ≠ .blockComment) : Unpaired r c cs :=
  ⟨fun _ hr => absurd hr hcode, fun _ hr => absurd hr hcode, fun _ hr => absurd hr hcomment⟩

theorem scanLine_cons (h : Unpaired r c cs) :
    scanLine r (c :: cs) = (scanLine (r.step c).2 cs).put [(c, (r.step c).1)] :=
  scanLine.eq_5 r c cs h.line h.opening h.closing

end Unpaired

/-- Where a line starts, by whether a block comment is open. -/
def Region.atStart (inComment : Bool) : Region := if inComment then .blockComment else .code

/-- The lines of a text from some region on. -/
def scanLines : Region → List (List Char) → List ScannedLine
  | _, [] => []
  | r, line :: lines =>
    scanLine r line :: scanLines (.atStart (scanLine r line).inComment) lines

theorem afterLine_eq (r : Region) : r.afterLine = .atStart r.isBlockComment := by
  cases r <;> rfl

theorem lines_cons {c : Char} (h : ¬(c = '\n' ∨ c = '\r')) (cs : List Char) :
    lines (c :: cs) = consFirst c (lines cs) := by
  rw [lines.eq_3 c cs (fun _ hc _ => h (.inr hc)), if_neg h]

/-- A first line that is not empty starts as the text does. -/
theorem head_of_lines {c : Char} {line cs : List Char} {rest : List (List Char)}
    (h : lines cs = (c :: line) :: rest) : ∃ cs', cs = c :: cs' := by
  revert h
  fun_cases lines cs with
  | case1 => simp
  | case2 cs => simp
  | case3 c cs _ _ => simp
  | case4 d cs _ _ =>
    intro h
    obtain ⟨first, others, hlines⟩ := List.exists_cons_of_ne_nil (lines_ne_nil cs)
    rw [hlines] at h
    cases h
    exact ⟨cs, rfl⟩

/-- The scanner of a whole source goes through it line by line. -/
theorem scan_eq_scanLines (r : Region) (cs : List Char) : scan r cs = scanLines r (lines cs) := by
  fun_induction scan r cs with
  | case1 r => rfl
  | case2 r cs ih => rw [ih, afterLine_eq]; rfl
  | case3 cs ih =>
    obtain ⟨first, rest, hlines⟩ := List.exists_cons_of_ne_nil (lines_ne_nil cs)
    rw [ih, lines_cons (by decide), lines_cons (by decide), hlines]
    rfl
  | case4 cs ih =>
    obtain ⟨first, rest, hlines⟩ := List.exists_cons_of_ne_nil (lines_ne_nil cs)
    rw [ih, lines_cons (by decide), lines_cons (by decide), hlines]
    rfl
  | case5 cs ih =>
    obtain ⟨first, rest, hlines⟩ := List.exists_cons_of_ne_nil (lines_ne_nil cs)
    rw [ih, lines_cons (by decide), lines_cons (by decide), hlines]
    rfl
  | case6 r c cs hpair _ _ _ hend ih =>
    rw [ih, afterLine_eq, lines.eq_3 c cs hpair, if_pos hend]
    rfl
  | case7 r c cs _ hline hopen hclose hend ih =>
    obtain ⟨first, rest, hlines⟩ := List.exists_cons_of_ne_nil (lines_ne_nil cs)
    have hunpaired : Unpaired r c first := by
      refine Unpaired.of_next ⟨hline, hopen, hclose⟩ ?_
      rintro d rest - rfl
      exact head_of_lines hlines
    rw [ih, lines_cons hend, hlines, consFirst, scanLines, scanLines, hunpaired.scanLine_cons]
    rfl

end Lines

section Masked

/-- The zone of a line as a region of the source. -/
def Zone.region : Zone → Region
  | .code => .code
  | .quoted q => .quoted q
  | .comment => .blockComment

/-- What is put in front does not see the white space at the end. -/
theorem trimmed_prepend {m m' : Masked} (h : m.trimmed = m'.trimmed) (out : List Char) :
    (m.prepend out).trimmed = (m'.prepend out).trimmed := by
  obtain ⟨hcode, hcomment⟩ := Masked.mk.inj h
  rw [Masked.trimmed, Masked.trimmed, Masked.prepend_code, Masked.prepend_code,
    Masked.prepend_inComment, Masked.prepend_inComment, hcomment,
    ← trimEnd_append_trimEnd, ← trimEnd_append_trimEnd _ out m'.code, hcode]

namespace ScannedLine

theorem rendered_put (ms : List (Char × Bool)) (l : ScannedLine) :
    (l.put ms).rendered = l.rendered.prepend (ms.flatMap shown) := by
  rw [rendered, put, List.flatMap_append]
  rfl

theorem masked_put {l : ScannedLine} {m : Masked} (h : l.masked = m.trimmed)
    (ms : List (Char × Bool)) : (l.put ms).masked = (m.prepend (ms.flatMap shown)).trimmed := by
  rw [masked, rendered_put]
  exact trimmed_prepend h _

end ScannedLine

theorem trimmed_of_blank {m n : Masked} (h : ∀ c ∈ m.code, isBlank c = true)
    (h' : ∀ c ∈ n.code, isBlank c = true) (hcomment : m.inComment = n.inComment) :
    m.trimmed = n.trimmed := by
  rw [Masked.trimmed, Masked.trimmed, trimEnd_eq_nil_iff.2 h, trimEnd_eq_nil_iff.2 h', hcomment]

theorem isBlank_blanks {c d : Char} (h : d ∈ blanks c) : isBlank d = true := by
  rw [List.eq_of_mem_replicate h]
  rfl

theorem flatMap_shown (c : Char) (kept : Bool) :
    [(c, kept)].flatMap ScannedLine.shown = if kept then [c] else blanks c :=
  List.append_nil _

/-- A line with one character more in front. -/
theorem Unpaired.masked_cons {r : Region} {c : Char} {cs : List Char} {m : Masked}
    (hunpaired : Unpaired r c cs) (h : (scanLine (r.step c).2 cs).masked = m.trimmed) :
    (scanLine r (c :: cs)).masked = (m.prepend (if (r.step c).1 then [c] else blanks c)).trimmed := by
  rw [hunpaired.scanLine_cons, ScannedLine.masked_put h, flatMap_shown]

/-- Nothing of a line comment is left. -/
theorem masked_lineComment (cs : List Char) : (scanLine .lineComment cs).masked = ⟨[], false⟩ := by
  induction cs with
  | nil => rfl
  | cons c cs ih =>
    have hblank : (Masked.prepend (blanks c) ⟨[], false⟩).trimmed = ⟨[], false⟩ := by
      refine trimmed_of_blank (n := ⟨[], false⟩) ?_ nofun rfl
      intro d hd
      rw [Masked.prepend_code, List.append_nil] at hd
      exact isBlank_blanks hd
    have hunpaired : Unpaired .lineComment c cs := .inside (by decide) (by decide)
    exact (hunpaired.masked_cons (m := ⟨[], false⟩) ih).trans hblank

/-- A character of a string: a backslash, the quote at its end, or any other. -/
theorem step_quoted_cases (q c : Char) : (Region.quoted q).step c = (false, .escaped q) ∨
    (Region.quoted q).step c = (true, .code) ∨ (Region.quoted q).step c = (false, .quoted q) := by
  rw [Region.step]
  split
  · exact .inl rfl
  · split
    · exact .inr (.inl rfl)
    · exact .inr (.inr rfl)

theorem step_quoted_other {q c : Char} (hback : c ≠ '\\') (hquote : c ≠ q) :
    (Region.quoted q).step c = (false, .quoted q) := by
  rw [Region.step, if_neg hback, if_neg hquote]

/-- What the scanner leaves of a line is the masked line. -/
theorem masked_scanLine (z : Zone) (cs : List Char) :
    (scanLine z.region cs).masked = (Lint.blank z cs).trimmed := by
  have hquoted : ∀ {q c : Char} {cs : List Char}, Unpaired (.quoted q) c cs :=
    .inside (by simp) (by simp)
  fun_induction Lint.blank z cs with
  | case1 z => cases z <;> rfl
  | case2 cs ih => exact ScannedLine.masked_put ih [('*', false), ('/', false)]
  | case3 c cs hclose ih =>
    have hunpaired : Unpaired .blockComment c cs :=
      ⟨fun _ hr => absurd hr (by decide), fun _ hr => absurd hr (by decide), fun cs' _ => hclose cs'⟩
    exact hunpaired.masked_cons ih
  | case4 q =>
    -- the second blank, which overruns the line, is trimmed off
    rfl
  | case5 q c cs ih =>
    have hescaped : Unpaired (.escaped q) c cs := .inside (by simp) (by simp)
    exact hquoted.masked_cons (c := '\\') (hescaped.masked_cons ih)
  | case6 q cs hend hback ih =>
    have hne : q ≠ '\\' := by
      rintro rfl
      cases cs with
      | nil => exact hend rfl rfl
      | cons c cs => exact hback c cs rfl rfl
    have hstep : (Region.quoted q).step q = (true, .code) := by
      rw [Region.step, if_neg hne, if_pos rfl]
    have hcons := hquoted.masked_cons (c := q) (by rw [hstep]; exact ih)
    rwa [hstep] at hcons
  | case7 q c cs hend hback hquote ih =>
    have hne : c ≠ '\\' := by
      rintro rfl
      cases cs with
      | nil => exact hend rfl rfl
      | cons c cs => exact hback c cs rfl rfl
    have hcons := hquoted.masked_cons (c := c) (by rw [step_quoted_other hne hquote]; exact ih)
    rwa [step_quoted_other hne hquote] at hcons
  | case8 cs =>
    rw [Zone.region, scanLine.eq_2,
      ScannedLine.masked_put (m := ⟨[], false⟩) (masked_lineComment cs)]
    rfl
  | case9 cs ih => exact ScannedLine.masked_put ih [('/', false), ('*', false)]
  | case10 c cs hline hblock ih =>
    have hunpaired : Unpaired .code c cs :=
      ⟨fun cs' _ => hline cs', fun cs' _ => hblock cs', fun _ hr => absurd hr (by decide)⟩
    refine hunpaired.masked_cons ?_
    rw [← ih]
    show (scanLine (if isQuote c then .quoted c else .code) cs).masked = _
    split <;> rfl

/-- A line masked by the strict edition, from the start of a line. -/
theorem mask_eq_scanLine (inComment : Bool) (line : List Char) :
    Lint.mask inComment line = (scanLine (.atStart inComment) line).masked := by
  have hregion : Region.atStart inComment = (Zone.atStart inComment).region := by
    cases inComment <;> rfl
  rw [hregion, masked_scanLine]
  rfl

end Masked

section Columns

theorem text_put (ms : List (Char × Bool)) (l : ScannedLine) :
    (l.put ms).text = ms.map Prod.fst ++ l.text := by
  rw [ScannedLine.text, ScannedLine.put, List.map_append]
  rfl

/-- The scanner leaves no character of a line out. -/
theorem text_scanLine (r : Region) (cs : List Char) : (scanLine r cs).text = cs := by
  fun_induction scanLine r cs with
  | case1 => rfl
  | case2 cs ih => rw [text_put, ih]; rfl
  | case3 cs ih => rw [text_put, ih]; rfl
  | case4 cs ih => rw [text_put, ih]; rfl
  | case5 r c cs _ _ _ ih => rw [text_put, ih]; rfl

theorem text_scanLines (lines : List (List Char)) : ∀ r : Region,
    (scanLines r lines).map ScannedLine.text = lines := by
  induction lines with
  | nil => intro r; rfl
  | cons line lines ih =>
    intro r
    rw [scanLines, List.map_cons, text_scanLine, ih]

/-- What is left of characters is as wide as they are, so that everything stays in its column. -/
theorem width_flatMap_shown (ms : List (Char × Bool)) :
    width (ms.flatMap ScannedLine.shown) = width (ms.map Prod.fst) := by
  induction ms with
  | nil => rfl
  | cons m ms ih =>
    obtain ⟨c, kept⟩ := m
    have hshown : width (ScannedLine.shown (c, kept)) = units c := by
      cases kept with
      | false => exact width_blanks c
      | true => exact Nat.add_zero _
    rw [List.flatMap_cons, width_append, ih, List.map_cons, width_cons, hshown]

theorem ScannedLine.width_masked_le (l : ScannedLine) : width l.masked.code ≤ width l.text := by
  rw [text, ← width_flatMap_shown]
  exact width_trimEnd_le isBlank _

end Columns

section Masks

/-- The masked lines of a text, each masked from where the block comments before it leave off. -/
def maskLines (mask : Bool → List Char → Masked) : Bool → List (List Char) → List Masked
  | _, [] => []
  | inComment, line :: lines =>
    mask inComment line :: maskLines mask (mask inComment line).inComment lines

theorem maskLines_eq_scanLines (lines : List (List Char)) : ∀ inComment : Bool,
    maskLines Lint.mask inComment lines =
      (scanLines (.atStart inComment) lines).map ScannedLine.masked := by
  induction lines with
  | nil => intro inComment; rfl
  | cons line lines ih =>
    intro inComment
    rw [maskLines, scanLines, List.map_cons, ih, mask_eq_scanLine]
    rfl

/-- Findings are made line by line, of a line as it is written and as it is masked. -/
theorem walk_eq_maskLines (mask : Bool → List Char → Masked)
    (check : Nat → List Char → Masked → List Finding) (lines : List (List Char)) :
    ∀ (inComment : Bool) (first : Nat), walk mask check inComment first lines =
      ((lines.zip (maskLines mask inComment lines)).zipIdx first).flatMap
        fun e => check e.2 e.1.1 e.1.2 := by
  induction lines with
  | nil => intro inComment first; rfl
  | cons line lines ih =>
    intro inComment first
    rw [walk, ih, maskLines, List.zip_cons_cons, List.zipIdx_cons, List.flatMap_cons]

theorem hintMask_eq : Hint.mask = Lint.mask :=
  funext fun inComment => funext fun line => Hint.mask_eq inComment line

/-- The way in which an edition masks a line. -/
def maskOf : Variant → Bool → List Char → Masked
  | .jslint => Lint.mask
  | .jshint => Hint.mask

theorem maskOf_eq (v : Variant) : maskOf v = Lint.mask := by
  cases v with
  | jslint => rfl
  | jshint => exact hintMask_eq

/-- The lines that the scanner goes through are those of the source. -/
theorem text_scan (source : List Char) :
    (scan .code source).map ScannedLine.text = lines source := by
  rw [scan_eq_scanLines, text_scanLines]

/-- Either edition masks the lines of a source as the scanner does. -/
theorem maskLines_eq_scan (v : Variant) (source : List Char) :
    maskLines (maskOf v) false (lines source) = (scan .code source).map ScannedLine.masked := by
  rw [scan_eq_scanLines, maskOf_eq]
  exact maskLines_eq_scanLines (lines source) false

/-- Masking is exact. The lines that the scanner goes through are those of the source, and the
masked lines of either edition are what the scanner leaves of them: of every line, each character
that it keeps and as many spaces as there are code units in every other, without the white space at
the end; a block comment is open behind a line where the scanner is in one. These lines are what
findings are made of. So the editions mask alike. No masked line is wider than the line, and in front
of any place of it there is as much left as was there. -/
theorem masks_exact (v : Variant) (source : List Char) :
    (scan .code source).map ScannedLine.text = lines source ∧
    maskLines (maskOf v) false (lines source) = (scan .code source).map ScannedLine.masked ∧
    (∀ check, walk (maskOf v) check false 0 (lines source) =
      (scan .code source).zipIdx.flatMap fun e => check e.2 e.1.text e.1.masked) ∧
    (∀ inComment line, Hint.mask inComment line = Lint.mask inComment line) ∧
    ∀ l : ScannedLine, width l.masked.code ≤ width l.text ∧
      ∀ n, width ((l.marks.take n).flatMap ScannedLine.shown) = width (l.text.take n) := by
  have htext := text_scan source
  have hmask := maskLines_eq_scan v source
  refine ⟨htext, hmask, fun check => ?_, Hint.mask_eq, fun l => ⟨l.width_masked_le, fun n => ?_⟩⟩
  · rw [walk_eq_maskLines, hmask, ← htext, List.zip_map', List.zipIdx_map, List.flatMap_map]
    rfl
  · rw [width_flatMap_shown, ScannedLine.text, List.map_take]

end Masks

end ScriptLint.Analysis
