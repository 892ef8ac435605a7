import Mathlib.Data.List.Basic
import ScriptLint.Proofs.Codes
import ScriptLint.Proofs.Formats

/-!
# ScriptLint.Proofs.ReadBack

The report on a batch says what was found. Its lines are those of the files with findings, one block
after the other, and every block, path, position, reason and evidence can be told from what follows
it.

* `Path.Plain`, `Path.text_injective`: paths are read back from their texts
* `readable_shown`, `readable_block`: findings and blocks are
* `OneLiners`, `splitOn_batch`: the lines of a report
* `renderBatch?_eq_iff`: what a report tells
-/

namespace ScriptLint

namespace Path

/-- The parts of a path as texts spell them. -/
def Plain (p : Path) : Prop := ∀ part ∈ p.parts, part ≠ "" ∧ part ≠ "." ∧ '/' ∉ part.toList

theorem slash_not_mem_pieces (cs : List Char) : ∀ part ∈ pieces cs, '/' ∉ part := by
  fun_induction pieces cs with
  | case1 => simp
  | case2 cs ih => simpa using ih
  | case3 c cs hc _ ih => simpa using Ne.symm hc
  | case4 c cs hc p ps hpieces ih =>
    rw [hpieces, List.forall_mem_cons] at ih
    rw [List.forall_mem_cons, List.mem_cons, not_or]
    exact ⟨⟨Ne.symm hc, ih.1⟩, ih.2⟩

theorem plain_parse (s : String) : (parse s).Plain := by
  intro part hpart
  simp only [parse, ofChars, List.mem_filterMap] at hpart
  obtain ⟨piece, hpiece, hsome⟩ := hpart
  split at hsome
  · cases hsome
  · rename_i hnot
    cases hsome
    rw [not_or] at hnot
    rw [String.toList_ofList]
    refine ⟨fun h => hnot.1 ?_, fun h => hnot.2 ?_, slash_not_mem_pieces _ piece hpiece⟩
    · exact String.ofList_injective h
    · exact String.ofList_injective h

/-- What follows the leading slashes of a path. -/
def body (p : Path) : List Char := ['/'].intercalate (p.parts.map String.toList)

theorem text_eq (p : Path) : p.text.toList =
    if p.slashes = 0 ∧ p.parts = [] then ['.'] else List.replicate p.slashes '/' ++ p.body := by
  rw [text]
  split
  · rfl
  · rw [String.toList_append, String.toList_ofList, String.toList_intercalate]
    rfl

theorem splitOn_body {p : Path} (h : p.Plain) (hparts : p.parts ≠ []) :
    p.body.splitOn '/' = p.parts.map String.toList := by
  refine List.splitOn_intercalate '/' ?_ (by simpa using hparts)
  rw [List.forall_mem_map]
  exact fun part hpart => (h part hpart).2.2

/-- What follows the leading slashes starts with another character, if there is anything. -/
theorem body_head {p : Path} (h : p.Plain) :
    (p.parts = [] ∧ p.body = []) ∨ (p.parts ≠ [] ∧ ∃ c cs, c ≠ '/' ∧ p.body = c :: cs) := by
  cases hparts : p.parts with
  | nil => exact .inl ⟨rfl, by rw [body, hparts]; rfl⟩
  | cons part parts =>
    obtain ⟨hne, _, hslash⟩ := h part (by rw [hparts]; exact List.mem_cons_self)
    obtain ⟨c, cs, hchars⟩ := List.exists_cons_of_ne_nil (mt String.toList_eq_nil_iff.1 hne)
    rw [hchars, List.mem_cons, not_or] at hslash
    refine .inr ⟨List.cons_ne_nil part parts, c, ?_⟩
    rw [body, hparts, List.map_cons, hchars]
    cases parts.map String.toList with
    | nil => exact ⟨cs, Ne.symm hslash.1, by simp⟩
    | cons next rest =>
      exact ⟨cs ++ '/' :: ['/'].intercalate (next :: rest), Ne.symm hslash.1, by simp⟩

theorem body_ne_slash {p : Path} (h : p.Plain) (cs : List Char) : p.body ≠ '/' :: cs := by
  intro heq
  obtain ⟨_, hbody⟩ | ⟨_, c, cs', hc, hbody⟩ := body_head h
  · rw [hbody] at heq
    cases heq
  · rw [hbody] at heq
    exact hc (List.cons.inj heq).1

theorem body_injective {p q : Path} (hp : p.Plain) (hq : q.Plain) (h : p.body = q.body) :
    p.parts = q.parts := by
  obtain ⟨hparts, hbody⟩ | ⟨hparts, c, cs, _, hbody⟩ := body_head hp
  · obtain ⟨hparts', _⟩ | ⟨_, c, cs, _, hbody'⟩ := body_head hq
    · rw [hparts, hparts']
    · rw [hbody, hbody'] at h
      cases h
  · obtain ⟨_, hbody'⟩ | ⟨hparts', _⟩ := body_head hq
    · rw [hbody, hbody'] at h
      cases h
    · have hmap := (splitOn_body hp hparts).symm.trans (h ▸ splitOn_body hq hparts')
      exact List.map_injective_iff.2 (fun _ _ => String.toList_inj.1) hmap

theorem slashes_append {xs ys : List Char} (hxs : ∀ cs, xs ≠ '/' :: cs)
    (hys : ∀ cs, ys ≠ '/' :: cs) :
    ∀ {m n : Nat}, List.replicate m '/' ++ xs = List.replicate n '/' ++ ys → m = n ∧ xs = ys
  | 0, 0, h => ⟨rfl, h⟩
  | 0, n + 1, h => absurd h (hxs _)
  | m + 1, 0, h => absurd h.symm (hys _)
  | m + 1, n + 1, h => by
    obtain ⟨rfl, hrest⟩ := slashes_append hxs hys (List.cons.inj h).2
    exact ⟨rfl, hrest⟩

/-- The text of the empty path is that of no other one. -/
theorem text_eq_dot {p : Path} (h : p.Plain) : p.text = "." ↔ p.slashes = 0 ∧ p.parts = [] := by
  have hchars := text_eq p
  constructor
  · intro htext
    by_contra hempty
    rw [if_neg hempty, htext] at hchars
    obtain ⟨_, hbody⟩ : 0 = p.slashes ∧ ['.'] = p.body :=
      slashes_append (by simp) (body_ne_slash h) hchars
    obtain ⟨_, hnil⟩ | ⟨hparts, _⟩ := body_head h
    · rw [hnil] at hbody
      cases hbody
    · have hsplit := splitOn_body h hparts
      rw [← hbody, show ['.'].splitOn '/' = [".".toList] from rfl] at hsplit
      obtain ⟨part, hpart, heq⟩ := List.mem_map.1 (hsplit ▸ List.mem_singleton_self _)
      exact (h part hpart).2.1 (String.toList_inj.1 heq)
  · intro hempty
    rw [if_pos hempty] at hchars
    exact String.toList_inj.1 hchars

/-- A path is read back from its text. -/
theorem text_injective {p q : Path} (hp : p.Plain) (hq : q.Plain) (h : p.text = q.text) :
    p = q := by
  obtain ⟨slashes, parts⟩ := p
  obtain ⟨slashes', parts'⟩ := q
  by_cases hdot : (⟨slashes, parts⟩ : Path).text = "."
  · obtain ⟨rfl, rfl⟩ := (text_eq_dot hp).1 hdot
    obtain ⟨rfl, rfl⟩ := (text_eq_dot hq).1 (h ▸ hdot)
    rfl
  · have hchars := text_eq ⟨slashes, parts⟩
    rw [if_neg (mt (text_eq_dot hp).2 hdot), h, text_eq, if_neg] at hchars
    · obtain ⟨rfl, hbody⟩ := slashes_append (body_ne_slash hq) (body_ne_slash hp) hchars
      obtain rfl := body_injective hq hp hbody
      rfl
    · exact mt (text_eq_dot hq).2 (h ▸ hdot)

end Path

section Findings

theorem mem_ofInt {i : Int} {c : Char} (h : c ∈ Digits.ofInt i) : c.isDigit = true ∨ c = '-' := by
  rw [Digits.ofInt] at h
  split at h
  · rcases List.mem_cons.1 h with rfl | h
    · exact .inr rfl
    · exact .inl (Digits.decimal_isDigit _ c h)
  · exact .inl (Digits.decimal_isDigit _ c h)

theorem decimal_injective {m n : Nat} (h : Digits.decimal m = Digits.decimal n) : m = n := by
  rw [← Digits.value_decimal m, ← Digits.value_decimal n, h]

theorem ofInt_injective {i j : Int} (h : Digits.ofInt i = Digits.ofInt j) : i = j := by
  have hsign : ∀ {m n : Nat}, '-' :: Digits.decimal m ≠ Digits.decimal n := by
    intro m n heq
    exact absurd (Digits.decimal_isDigit n '-' (heq ▸ List.mem_cons_self)) (by decide)
  rw [Digits.ofInt, Digits.ofInt] at h
  split at h <;> split at h
  · have := decimal_injective (List.cons.inj h).2
    omega
  · exact absurd h hsign
  · exact absurd h.symm hsign
  · have := decimal_injective h
    omega

/-- A position can be told from what follows it, if that starts with a character that positions do
not have. -/
theorem ofInt_append {i j : Int} {c : Char} {xs ys : List Char} (hc : c.isDigit = false)
    (hminus : c ≠ '-') (h : Digits.ofInt i ++ c :: xs = Digits.ofInt j ++ c :: ys) :
    i = j ∧ xs = ys := by
  have hnot : ∀ k, c ∉ Digits.ofInt k := by
    intro k hmem
    rcases mem_ofInt hmem with hdigit | heq
    · rw [hc] at hdigit
      cases hdigit
    · exact hminus heq
  have hsplit : ∀ k zs, (Digits.ofInt k ++ c :: zs).takeWhile (· != c) = Digits.ofInt k ∧
      (Digits.ofInt k ++ c :: zs).dropWhile (· != c) = c :: zs := by
    intro k zs
    have hfront : ∀ x ∈ Digits.ofInt k, (x != c) = true := by
      intro x hx
      rw [bne_iff_ne]
      exact fun heq => hnot k (heq ▸ hx)
    rw [List.takeWhile_append_of_pos hfront, List.dropWhile_append_of_pos hfront]
    simp
  obtain ⟨hposition, hrest⟩ := hsplit i xs
  rw [h, (hsplit j ys).1] at hposition
  rw [h, (hsplit j ys).2] at hrest
  exact ⟨ofInt_injective hposition.symm, (List.cons.inj hrest).2.symm⟩

/-- Both positions and the reason are read back from the first line of a finding. -/
theorem shown_injective {s t : Shown} (h : s.lines = t.lines) : s = t := by
  obtain ⟨line, character, reason, evidence⟩ := s
  obtain ⟨line', character', reason', evidence'⟩ := t
  simp only [Shown.lines, List.cons.injEq, and_true] at h
  obtain ⟨hlocator, hevidence⟩ := h
  obtain rfl := (String.append_right_inj _).1 hevidence
  have hchars := congrArg String.toList hlocator
  simp only [Diagnostic.shownInt, String.toList_append, String.toList_ofList, List.append_assoc,
    List.append_cancel_left_eq] at hchars
  obtain ⟨rfl, hrest⟩ := ofInt_append (c := ' ') (by decide) (by decide) hchars
  obtain ⟨rfl, hreason⟩ := ofInt_append (c := ':') (by decide) (by decide)
    (List.append_cancel_left hrest)
  obtain rfl := String.toList_inj.1 (List.cons.inj hreason).2
  rfl

theorem readable_shown : ReadableOn (fun _ => True) Shown.lines := by
  intro s t xs ys _ _ h
  have hlines : s.lines = t.lines ∧ xs = ys := List.append_inj h rfl
  exact ⟨shown_injective hlines.1, hlines.2⟩

theorem shown_starts (s : Shown) (rest lines : List String) : s.lines ++ rest ≠ "" :: lines := by
  intro h
  have hchars := congrArg String.toList (List.cons.inj h).1
  simp only [String.toList_append] at hchars
  cases hchars

/-- The lines of a file with findings. -/
def blockLines (e : Path × List Diagnostic) : List String := (Entry.ofFound e).lines

theorem ofDiagnostic_injective {c d : Diagnostic}
    (h : Shown.ofDiagnostic c = Shown.ofDiagnostic d) : c = d := by
  obtain ⟨line, character, reason, evidence⟩ := c
  obtain ⟨line', character', reason', evidence'⟩ := d
  simp only [Shown.ofDiagnostic, Shown.mk.injEq] at h
  obtain ⟨hline, hcharacter, rfl, rfl⟩ := h
  obtain rfl := (Int.add_left_inj 1).1 hline
  obtain rfl := (Int.add_left_inj 1).1 hcharacter
  rfl

/-- A block is read back up to the empty line after its findings. -/
theorem readable_block : ReadableOn (fun e => e.1.Plain) blockLines := by
  intro e e' xs ys he he' h
  obtain ⟨p, ds⟩ := e
  obtain ⟨p', ds'⟩ := e'
  simp only [blockLines, Entry.ofFound, Entry.lines, List.cons_append, List.append_assoc,
    List.cons.injEq, true_and, List.nil_append] at h
  obtain ⟨hheader, hfindings⟩ := h
  have hpath := (String.append_right_inj _).1 ((String.append_left_inj _).1 hheader)
  obtain rfl := Path.text_injective he he' hpath
  obtain ⟨hshown, hrest⟩ := flatMap_readable readable_shown (fun s rest => shown_starts s rest _)
    (fun s rest => shown_starts s rest _) _ (by simp) (by simp) hfindings
  obtain rfl := List.map_injective_iff.2 (fun _ _ => ofDiagnostic_injective) hshown
  exact ⟨rfl, (List.cons.inj hrest).2⟩

end Findings

section Lines

theorem oneLine_shownInt (i : Int) : OneLine (Diagnostic.shownInt i) := by
  intro h
  rw [Diagnostic.shownInt, String.toList_ofList] at h
  rcases mem_ofInt h with hdigit | heq
  · cases hdigit
  · cases heq

/-- The path and the findings of a file have no line ends of their own. -/
structure OneLiners (e : Path × List Diagnostic) : Prop where
  plain : e.1.Plain
  path : OneLine e.1.text
  findings : ∀ d ∈ e.2, OneLine d.reason ∧ OneLine d.evidence

theorem oneLine_reportLines {d : Diagnostic} (h : OneLine d.reason ∧ OneLine d.evidence) :
    ∀ l ∈ d.reportLines, OneLine l := by
  have hline : OneLine "Error at line " := by simp [OneLine]
  have hcharacter : OneLine " character " := by simp [OneLine]
  have hcolon : OneLine ": " := by simp [OneLine]
  have hindent : OneLine "  " := by simp [OneLine]
  have hlocator : OneLine d.locator := ((((hline.append (oneLine_shownInt _)).append
    hcharacter).append (oneLine_shownInt _)).append hcolon).append h.1
  rw [Diagnostic.reportLines, List.forall_mem_cons, List.forall_mem_singleton]
  exact ⟨hlocator, hindent.append h.2⟩

theorem shown_reportLines (ds : List Diagnostic) :
    (ds.map Shown.ofDiagnostic).flatMap Shown.lines = ds.flatMap Diagnostic.reportLines := by
  rw [List.flatMap_map]
  rfl

theorem oneLine_flatMap {α : Type} {write : α → List String} {xs : List α}
    (h : ∀ x ∈ xs, ∀ l ∈ write x, OneLine l) : ∀ l ∈ xs.flatMap write, OneLine l := by
  intro l hl
  obtain ⟨x, hx, hmem⟩ := List.mem_flatMap.1 hl
  exact h x hx l hmem

theorem oneLine_blockLines {e : Path × List Diagnostic} (h : OneLiners e) :
    ∀ l ∈ blockLines e, OneLine l := by
  have hempty : OneLine "" := by simp [OneLine]
  have hopen : OneLine "In [" := by simp [OneLine]
  have hclose : OneLine "]:" := by simp [OneLine]
  have hreport := oneLine_flatMap fun d hd => oneLine_reportLines (h.findings d hd)
  rw [blockLines, Entry.lines, Entry.ofFound, shown_reportLines, List.forall_mem_cons,
    List.forall_mem_cons, List.forall_mem_append, List.forall_mem_singleton]
  exact ⟨hempty, (hopen.append h.path).append hclose, hreport, hempty⟩

end Lines

section Batches

/-- The files with findings. -/
def withFindings (found : List (Path × List Diagnostic)) : List (Path × List Diagnostic) :=
  found.filter fun e => !e.2.isEmpty

theorem batchLines_withFindings (found : List (Path × List Diagnostic)) :
    batchLines (found.map Entry.ofFound) = (withFindings found).flatMap blockLines := by
  rw [batchLines, List.filter_map, List.flatMap_map]
  rfl

theorem withFindings_eq_nil_iff (found : List (Path × List Diagnostic)) :
    withFindings found = [] ↔ allClean found = true := by
  simp [withFindings, allClean_iff]

theorem flatMap_blockLines_ne_nil {found : List (Path × List Diagnostic)} (h : found ≠ []) :
    found.flatMap blockLines ≠ [] := by
  cases found with
  | nil => exact absurd rfl h
  | cons e found => exact List.cons_ne_nil _ _

/-- The report on a batch has the blocks of the files with findings; without any there is none. -/
theorem renderBatch?_reportOf (found : List (Path × List Diagnostic)) :
    FileReport.renderBatch? (found.map reportOf) = if withFindings found = [] then none else
      some (String.intercalate "\n" ((withFindings found).flatMap blockLines)) := by
  have hlines := linesText_blocks found
  rw [batchLines_withFindings] at hlines
  cases hblocks : (found.map reportOf).filterMap FileReport.block? with
  | nil =>
    rw [if_pos ((withFindings_eq_nil_iff found).2 ((blocks_eq_nil_iff found).1 hblocks))]
    simp only [FileReport.renderBatch?, hblocks]
  | cons block blocks =>
    have hsome : withFindings found ≠ [] := by
      rw [ne_eq, withFindings_eq_nil_iff, ← blocks_eq_nil_iff, hblocks]
      exact List.cons_ne_nil block blocks
    obtain ⟨l, ls, hcons⟩ := List.exists_cons_of_ne_nil (flatMap_blockLines_ne_nil hsome)
    rw [if_neg hsome]
    simp only [FileReport.renderBatch?, hblocks, Option.some.injEq]
    rw [hblocks, hcons, ← line_intercalate, ← line_intercalate] at hlines
    rw [hcons]
    exact (String.append_left_inj "\n").1 hlines

theorem renderBatch?_eq_none_iff (found : List (Path × List Diagnostic)) :
    FileReport.renderBatch? (found.map reportOf) = none ↔ withFindings found = [] := by
  rw [renderBatch?_reportOf]
  split <;> simp_all

/-- The lines of the report on a batch. -/
theorem splitOn_batch {found : List (Path × List Diagnostic)} (h : ∀ e ∈ found, OneLiners e)
    {text : String} (htext : FileReport.renderBatch? (found.map reportOf) = some text) :
    text.toList.splitOn '\n' = ((withFindings found).flatMap blockLines).map String.toList := by
  rw [renderBatch?_reportOf] at htext
  split at htext
  · cases htext
  · rename_i hsome
    cases htext
    refine splitOn_intercalate_lines ?_ (flatMap_blockLines_ne_nil hsome)
    exact oneLine_flatMap fun e he => oneLine_blockLines (h e (List.mem_of_mem_filter he))

/-- The lines of the report on a file. -/
theorem splitOn_report {ds : List Diagnostic} (h : ∀ d ∈ ds, OneLine d.reason ∧ OneLine d.evidence)
    {text : String} (htext : Diagnostic.report? ds = some text) :
    text.toList.splitOn '\n' = (ds.flatMap Diagnostic.reportLines).map String.toList := by
  cases ds with
  | nil => cases htext
  | cons d ds =>
    cases htext
    exact splitOn_intercalate_lines (oneLine_flatMap fun d hd => oneLine_reportLines (h d hd))
      (List.cons_ne_nil _ _)

theorem length_reportLines (ds : List Diagnostic) :
    (ds.flatMap Diagnostic.reportLines).length = 2 * ds.length := by
  rw [List.length_flatMap]
  simp [Diagnostic.reportLines, Nat.mul_comm]

theorem withFindings_of_renderBatch? {xs ys : List (Path × List Diagnostic)}
    (hxs : ∀ e ∈ xs, OneLiners e) (hys : ∀ e ∈ ys, OneLiners e)
    (h : FileReport.renderBatch? (xs.map reportOf) = FileReport.renderBatch? (ys.map reportOf)) :
    withFindings xs = withFindings ys := by
  cases htext : FileReport.renderBatch? (xs.map reportOf) with
  | none =>
    rw [(renderBatch?_eq_none_iff xs).1 htext, (renderBatch?_eq_none_iff ys).1 (h ▸ htext)]
  | some text =>
    have hlines := (splitOn_batch hxs htext).symm.trans (splitOn_batch hys (h ▸ htext))
    have hblocks := List.map_injective_iff.2 (fun _ _ => String.toList_inj.1) hlines
    have hplain : ∀ {found : List (Path × List Diagnostic)}, (∀ e ∈ found, OneLiners e) →
        ∀ e ∈ withFindings found, e.1.Plain :=
      fun hfound e he => (hfound e (List.mem_of_mem_filter he)).plain
    refine (flatMap_readable readable_block ?_ ?_ (withFindings xs) (hplain hxs) (hplain hys)
      (congrArg (· ++ []) hblocks)).1 <;> exact fun e rest => List.cons_ne_nil _ _

/-- The report on a batch tells which files have findings, in which order, and which findings these
are, and nothing else: two batches have the same report exactly when they agree on that. There is no
report exactly when no file has findings. The report on a file has two lines for each of its
findings. -/
theorem renderBatch?_eq_iff {xs ys : List (Path × List Diagnostic)}
    (hxs : ∀ e ∈ xs, OneLiners e) (hys : ∀ e ∈ ys, OneLiners e) :
    (FileReport.renderBatch? (xs.map reportOf) = FileReport.renderBatch? (ys.map reportOf) ↔
      withFindings xs = withFindings ys) ∧
    (FileReport.renderBatch? (xs.map reportOf) = none ↔ withFindings xs = []) ∧
    ∀ e ∈ xs, ((reportOf e).report = none ↔ e.2 = []) ∧
      ∀ text, (reportOf e).report = some text →
        (text.toList.splitOn '\n').length = 2 * e.2.length := by
  refine ⟨⟨withFindings_of_renderBatch? hxs hys, fun h => ?_⟩, renderBatch?_eq_none_iff xs,
    fun e he => ⟨Checker.report?_eq_none, fun text htext => ?_⟩⟩
  · rw [renderBatch?_reportOf, renderBatch?_reportOf, h]
  · rw [splitOn_report (hxs e he).findings htext, List.length_map, length_reportLines]

/-- The findings that are told apart below have texts that look like those around them. -/
def lookalike : Diagnostic :=
  ⟨0, -1, "]: Error at line 1 character 0: x", "In [a]:"⟩

def inOneFile : List (Path × List Diagnostic) :=
  [(⟨0, ["a"]⟩, [lookalike, lookalike]), (⟨1, ["b]:"]⟩, [])]

def inTwoFiles : List (Path × List Diagnostic) :=
  [(⟨0, ["a"]⟩, [lookalike]), (⟨0, ["a"]⟩, [lookalike])]

theorem renderBatch?_apart : (∀ e ∈ inOneFile, OneLiners e) ∧ (∀ e ∈ inTwoFiles, OneLiners e) ∧
    FileReport.renderBatch? (inOneFile.map reportOf) ≠
      FileReport.renderBatch? (inTwoFiles.map reportOf) := by
  have hfindings : OneLine lookalike.reason ∧ OneLine lookalike.evidence := by
    simp [OneLine, lookalike]
  have hpath : OneLine (Path.text ⟨0, ["a"]⟩) := by
    unfold OneLine
    decide
  have hcleanPath : OneLine (Path.text ⟨1, ["b]:"]⟩) := by
    unfold OneLine
    decide
  have hfile : ∀ ds, (∀ d ∈ ds, d = lookalike) → OneLiners (⟨0, ["a"]⟩, ds) :=
    fun ds hds => ⟨by simp [Path.Plain], hpath, fun d hd => hds d hd ▸ hfindings⟩
  have hclean : OneLiners (⟨1, ["b]:"]⟩, []) := ⟨by simp [Path.Plain], hcleanPath, by simp⟩
  have hone : ∀ e ∈ inOneFile, OneLiners e := by
    rw [inOneFile, List.forall_mem_cons, List.forall_mem_singleton]
    exact ⟨hfile _ (by simp), hclean⟩
  have htwo : ∀ e ∈ inTwoFiles, OneLiners e := by
    rw [inTwoFiles, List.forall_mem_cons, List.forall_mem_singleton]
    exact ⟨hfile _ (by simp), hfile _ (by simp)⟩
  refine ⟨hone, htwo, fun h => ?_⟩
  have hsame := (renderBatch?_eq_iff hone htwo).1.1 h
  exact absurd hsame (by decide)

end Batches

end ScriptLint
